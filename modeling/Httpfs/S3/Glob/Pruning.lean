import Httpfs.S3.Glob.Result
import Httpfs.Text.Percent
import Mathlib.Logic.Function.Iterate

/-!
# Directories that are not listed

A directory in which the pattern cannot match is not listed.  The prefix of the
directory is URL decoded before it is compared, and once more at every further page
of the same listing.
-/

namespace Httpfs.S3.Glob

open Text S3GlobMatchMode

/-! ## Listing the current directory -/

/-- What a call returns that lists a page of the current directory. -/
def listCurrentPage (environment : Environment) (result : S3GlobResult) :
    Except ErrorData (S3GlobResult × List Text) := do
  let prefixPath := result.parsedS3Url.urlPrefix ++ result.parsedS3Url.bucket ++ "/".toList ++
    result.currentCommonPrefix
  let response ← listRequest environment result.authParams (environment.decode prefixPath)
    result.commonPrefixContinuationToken .hierarchical
  let result := { result with
    currentCommonPrefix := environment.decode result.currentCommonPrefix
    commonPrefixes := result.commonPrefixes ++ response.commonPrefixes
    commonPrefixContinuationToken := response.continuationToken }
  if response.continuationToken.isEmpty then
    pure (selectNextCommonPrefix result, listedFiles environment response)
  else pure (result, listedFiles environment response)

/-- The prefix that a listing sent, as the calls for its pages leave it behind. -/
def AtPage (decode : Text → Text) (listed : Text) (page : Nat) (result : S3GlobResult) : Prop :=
  result.currentCommonPrefix = decode^[page] listed

/-- A call after which there are more pages leaves the prefix decoded once more. -/
theorem AtPage.next {environment : Environment} {listed : Text} {page : Nat}
    {result next : S3GlobResult} {s3Keys : List Text}
    (atPage : AtPage environment.decode listed page result)
    (scans : scanCurrentCommonPrefix environment result = .ok (next, s3Keys))
    (more : next.commonPrefixContinuationToken ≠ []) :
    AtPage environment.decode listed (page + 1) next := by
  have keeps : ∀ state : S3GlobResult,
      (selectNextCommonPrefix state).commonPrefixContinuationToken =
        state.commonPrefixContinuationToken := by
    intro state
    unfold selectNextCommonPrefix
    split
    · rfl
    · rfl
  rw [AtPage, Function.iterate_succ_apply', ← atPage]
  unfold scanCurrentCommonPrefix at scans
  dsimp only at scans
  split at scans
  · obtain ⟨response, -, scans⟩ := bind_eq_ok_iff.mp scans
    rw [pure_bind] at scans
    dsimp only at scans
    split at scans
    · rename_i empty
      cases scans
      rw [keeps] at more
      exact absurd (List.isEmpty_iff.mp empty) more
    · cases scans
      rfl
  · rw [pure_bind] at scans
    dsimp only at scans
    split at scans
    · rename_i empty
      cases scans
      rw [keeps] at more
      exact absurd (List.isEmpty_iff.mp empty) more
    · cases scans
      rfl

theorem scanCurrentCommonPrefix_of_matches {environment : Environment} {result : S3GlobResult}
    (tested : matchSegments environment.glob prefixMode (segments result.parsedS3Url.key)
      (segments (environment.decode result.currentCommonPrefix)) = true) :
    scanCurrentCommonPrefix environment result = listCurrentPage environment result := by
  rw [scanCurrentCommonPrefix, listCurrentPage]
  dsimp only
  rw [if_pos tested]
  cases listRequest environment result.authParams
      (environment.decode (result.parsedS3Url.urlPrefix ++ result.parsedS3Url.bucket ++
        "/".toList ++ result.currentCommonPrefix))
      result.commonPrefixContinuationToken .hierarchical with
  | error error => rfl
  | ok response => rfl

/-- Calls of one directory: the first page is read from the prefix a listing sent, and
the next ones as long as there are more. -/
inductive Pages (environment : Environment) (listed : Text) : Nat → S3GlobResult → Prop
  | first {result : S3GlobResult} (selected : result.currentCommonPrefix = listed) :
      Pages environment listed 0 result
  | next {page : Nat} {result after : S3GlobResult} {s3Keys : List Text}
      (before : Pages environment listed page result)
      (scans : scanCurrentCommonPrefix environment result = .ok (after, s3Keys))
      (more : after.commonPrefixContinuationToken ≠ []) :
      Pages environment listed (page + 1) after

theorem Pages.atPage {environment : Environment} {listed : Text} {page : Nat}
    {result : S3GlobResult} (pages : Pages environment listed page result) :
    AtPage environment.decode listed page result := by
  induction pages with
  | first selected => exact selected
  | next before scans more inductionHypothesis => exact inductionHypothesis.next scans more

/-! ## Soundness -/

/-- The call for a page of a directory below which a key matches lists that page. -/
def NeverSkips (decode : Text → Text) (listed : Text) (page : Nat) : Prop :=
  ∀ (environment : Environment) (result : S3GlobResult) (rest : Text),
    environment.decode = decode → AtPage decode listed page result →
    accepts environment.glob result.parsedS3Url (decode listed ++ rest) = true →
    scanCurrentCommonPrefix environment result = listCurrentPage environment result

theorem segments_append_of_directory {directory : Text} (isDirectory : directory.getLast? = some '/')
    (rest : Text) : segments (directory ++ rest) = segments directory ++ segments rest := by
  rcases List.getLast?_eq_some_iff.mp isDirectory with ⟨front, rfl⟩
  rw [List.append_assoc, List.singleton_append, segments_append_cons, segments_append_cons]
  congr 1
  exact (List.append_nil _).symm

theorem neverSkips_of_kept {decode : Text → Text} {listed : Text} {page : Nat}
    (isDirectory : (decode listed).getLast? = some '/')
    (kept : segments (decode^[page + 1] listed) <+: segments (decode listed)) :
    NeverSkips decode listed page := by
  intro environment result rest isDecode atPage accepted
  rcases kept with ⟨others, segmentsEq⟩
  apply scanCurrentCommonPrefix_of_matches
  rw [accepts, segments_append_of_directory isDirectory, ← segmentsEq, List.append_assoc] at accepted
  rw [atPage, isDecode, ← Function.iterate_succ_apply' decode]
  exact matchSegments_prefixMode_of_append accepted

/-! ## Marked segments -/

/-- A pattern that matches the marked forms of segments and nothing else. -/
def marked (segment : Text) : Text :=
  'x' :: segment

def markedGlob (segment pattern : Text) : Bool :=
  decide (pattern = marked segment)

theorem marked_ne (segment : Text) : marked segment ≠ "**".toList := by
  intro same
  cases same

theorem matchSegments_marked (key : List Text) :
    matchSegments markedGlob completeMode (key.map marked) key = true := by
  induction key with
  | nil => rfl
  | cons first rest inductionHypothesis =>
      rw [List.map_cons, matchSegments, if_neg (marked_ne first), inductionHypothesis, markedGlob]
      simp

theorem prefix_of_matchSegments_marked {key front : List Text}
    (tested : matchSegments markedGlob prefixMode (key.map marked) front = true) :
    front <+: key := by
  induction key generalizing front with
  | nil =>
      rw [List.map_nil, matchSegments, List.isEmpty_iff] at tested
      exact tested ▸ List.nil_prefix
  | cons first rest inductionHypothesis =>
      cases front with
      | nil => exact List.nil_prefix
      | cons other front =>
          rw [List.map_cons, matchSegments, if_neg (marked_ne first), Bool.and_eq_true, markedGlob,
            decide_eq_true_iff] at tested
          have same : first = other := (List.cons.inj tested.1).2
          rw [same]
          exact List.cons_prefix_cons.mpr ⟨rfl, inductionHypothesis tested.2⟩

/-- Any segments without a slash are the segments of a text. -/
theorem exists_segments_eq {pieces : List Text} (nonempty : ∀ piece ∈ pieces, piece ≠ [])
    (free : ∀ piece ∈ pieces, '/' ∉ piece) : ∃ text, segments text = pieces := by
  induction pieces with
  | nil => exact ⟨[], rfl⟩
  | cons piece pieces inductionHypothesis =>
      rcases inductionHypothesis (fun other member => nonempty other (List.mem_cons_of_mem _ member))
        (fun other member => free other (List.mem_cons_of_mem _ member)) with ⟨text, isText⟩
      refine ⟨piece ++ '/' :: text, ?_⟩
      rw [segments_append_cons, segments_of_not_mem (free piece List.mem_cons_self)
        (nonempty piece List.mem_cons_self), isText]
      rfl

theorem free_of_mem_segments {text piece : Text} (isPiece : piece ∈ segments text) :
    '/' ∉ piece := by
  induction length : text.length using Nat.strong_induction_on generalizing text with
  | _ size inductionHypothesis =>
      by_cases slash : '/' ∈ text
      · rcases List.eq_append_cons_of_mem slash with ⟨front, back, rfl, free⟩
        rw [segments_append_cons] at isPiece
        rw [List.length_append, List.length_cons] at length
        rcases List.mem_append.mp isPiece with first | later
        · intro member
          exact free (mem_of_mem_segments first member)
        · exact inductionHypothesis back.length (by omega) later rfl
      · intro member
        exact slash (mem_of_mem_segments isPiece member)

theorem ne_nil_of_mem_segments {text piece : Text} (isPiece : piece ∈ segments text) :
    piece ≠ [] := by
  have kept := (List.mem_filter.mp isPiece).2
  simpa using kept

/-- A list that two different ends both extend is there without them. -/
theorem prefix_of_prefix_append {front whole : List Text} {first second : Text}
    (different : first ≠ second) (isFirst : front <+: whole ++ [first])
    (isSecond : front <+: whole ++ [second]) : front <+: whole := by
  rcases List.prefix_concat_iff.mp isFirst with same | shorter
  · rcases List.prefix_concat_iff.mp isSecond with other | shorter
    · have ends := List.append_cancel_left (same.symm.trans other)
      exact absurd (List.cons.inj ends).1 different
    · exact shorter
  · exact shorter

/-- Where the prefix is not kept, a page of a directory with a matching key is skipped. -/
theorem prefix_of_neverSkips {decode : Text → Text} {listed : Text} {page : Nat}
    (isDirectory : (decode listed).getLast? = some '/')
    (never : NeverSkips decode listed page) :
    segments (decode^[page + 1] listed) <+: segments (decode listed) := by
  have extended : ∀ rest : Text, '/' ∉ rest → rest ≠ [] →
      segments (decode^[page + 1] listed) <+: segments (decode listed) ++ [rest] := by
    intro rest free nonempty
    have keySegments : segments (decode listed ++ rest) = segments (decode listed) ++ [rest] := by
      rw [segments_append_of_directory isDirectory, segments_of_not_mem free nonempty]
    obtain ⟨pattern, isPattern⟩ : ∃ pattern,
        segments pattern = (segments (decode listed ++ rest)).map marked := by
      apply exists_segments_eq
      · intro piece member
        rcases List.mem_map.mp member with ⟨segment, -, rfl⟩
        exact List.cons_ne_nil _ _
      · intro piece member
        rcases List.mem_map.mp member with ⟨segment, isSegment, rfl⟩
        intro slash
        rcases List.mem_cons.mp slash with impossible | inside
        · exact absurd impossible (by decide)
        · exact free_of_mem_segments isSegment inside
    let environment : Environment := ⟨decode, markedGlob, none, fun _ => ⟨[], [], ['t']⟩⟩
    let result : S3GlobResult :=
      { globPattern := [], authParams := {}, parsedS3Url := { key := pattern },
        currentCommonPrefix := decode^[page] listed }
    have accepted : accepts environment.glob result.parsedS3Url (decode listed ++ rest) = true := by
      rw [accepts, isPattern]
      exact matchSegments_marked _
    have lists := never environment result rest rfl rfl accepted
    rw [← keySegments]
    apply prefix_of_matchSegments_marked
    by_contra skipped
    have tested : ¬ matchSegments environment.glob prefixMode (segments result.parsedS3Url.key)
        (segments (environment.decode result.currentCommonPrefix)) = true := by
      rw [isPattern]
      rw [Function.iterate_succ_apply'] at skipped
      exact skipped
    rw [scanCurrentCommonPrefix] at lists
    dsimp only at lists
    rw [if_neg tested, listCurrentPage] at lists
    cases outcome : listRequest environment result.authParams
        (environment.decode (result.parsedS3Url.urlPrefix ++ result.parsedS3Url.bucket ++
          "/".toList ++ result.currentCommonPrefix))
        result.commonPrefixContinuationToken .hierarchical with
    | error error =>
        rw [outcome] at lists
        contradiction
    | ok response =>
        rw [outcome] at lists
        obtain ⟨parsedUrl, -, answers⟩ := bind_eq_ok_iff.mp outcome
        cases answers
        have tokens := congrArg (fun reply => match reply with
          | .ok (state, _) => S3GlobResult.commonPrefixContinuationToken state
          | .error _ => []) lists
        change ([] : Text) = ['t'] at tokens
        contradiction
  exact prefix_of_prefix_append (show "a".toList ≠ "b".toList by decide)
    (extended "a".toList (by decide) (by decide)) (extended "b".toList (by decide) (by decide))

/-- Whatever matches a pattern has only beginnings that may go on to match it; and the
calls for a page of a directory never skip it while a key below the directory matches,
exactly if the prefix that is decoded once more at every page keeps its segments. -/
theorem pruning_sound_iff {decode : Text → Text} {listed : Text}
    (isDirectory : (decode listed).getLast? = some '/') (page : Nat) :
    ((∀ (glob : Text → Text → Bool) (pattern key front : List Text), front <+: key → front ≠ key →
        matchSegments glob completeMode pattern key = true →
        matchSegments glob prefixMode pattern front = true) ∧
      NeverSkips decode listed page) ↔
    segments (decode^[page + 1] listed) <+: segments (decode listed) := by
  constructor
  · rintro ⟨-, never⟩
    exact prefix_of_neverSkips isDirectory never
  · intro kept
    constructor
    · rintro glob pattern key front ⟨back, rfl⟩ _ complete
      exact matchSegments_prefixMode_of_append complete
    · exact neverSkips_of_kept isDirectory kept

/-- Every page of a directory with plain letters is listed. -/
theorem pruning_sound_iff_letters : NeverSkips Percent.decode "ab/".toList 1 :=
  ((pruning_sound_iff (by decide) 1).mpr (by decide)).2

/-- Segments are compared as the pattern `*+b` does, and otherwise as they are. -/
def plusGlob (segment pattern : Text) : Bool :=
  if pattern = "*+b".toList then endsWith segment "+b".toList else decide (segment = pattern)

/-- Every listing has two pages. -/
def twoPages : Environment where
  decode := Percent.decode
  glob := plusGlob
  allowRecursiveGlobbing := none
  service query :=
    if query.continuationToken = [] then ⟨["a%2Bb/w".toList], [], "t".toList⟩
    else ⟨["a%2Bb/x".toList], [], []⟩

def atPlus : S3GlobResult where
  globPattern := "s3://bucket/*+b/x".toList
  authParams := {}
  parsedS3Url :=
    { urlPrefix := "s3://".toList, bucket := "bucket".toList, key := "*+b/x".toList }
  currentCommonPrefix := "a%2Bb/".toList

/-- The second page of the directory `a+b/` is not listed: decoded twice, its prefix is
`a b/`. -/
theorem second_page_of_plus_skipped :
    ¬ ∀ (environment : Environment) (listed rest : Text) (page : Nat) (result : S3GlobResult),
      (environment.decode listed).getLast? = some '/' → Pages environment listed page result →
      accepts environment.glob result.parsedS3Url (environment.decode listed ++ rest) = true →
      scanCurrentCommonPrefix environment result = listCurrentPage environment result := by
  intro always
  have first : Pages twoPages "a%2Bb/".toList 0 atPlus := .first rfl
  have scans : scanCurrentCommonPrefix twoPages atPlus =
      .ok ({ atPlus with
        currentCommonPrefix := "a+b/".toList
        commonPrefixContinuationToken := "t".toList }, ["a+b/w".toList]) := by
    decide
  have second := Pages.next first scans (by decide)
  have lists := always twoPages "a%2Bb/".toList "x".toList 1 _ (by decide) second
    (by decide)
  exact absurd lists (by decide)

end Httpfs.S3.Glob
