import Httpfs.S3.Delete.RemoveDirectory

/-!
# The walk of a directory

What the walk of a directory's pattern is opened with, what its list requests
ask for, and what it reports.  A directory without a wildcard lists all the keys
below it.
-/

namespace Httpfs.S3.Delete

open Http Text Glob

/-! ## The walk of a directory -/

section Walking

variable {joinPath : Text → Text → Text} {environment : Environment} {opener : Opener}
  {content : List Text} {target : ParsedS3Url} {directory : Text}

theorem trimDirectory_append (front back : Text) :
    trimDirectory (front ++ back) =
      if trimDirectory back = [] then trimDirectory front else front ++ trimDirectory back := by
  rw [trimDirectory, trimDirectory, trimDirectory, List.rdropWhile, List.rdropWhile,
    List.rdropWhile, List.reverse_append, List.dropWhile_append]
  simp only [List.isEmpty_iff, List.reverse_eq_nil_iff]
  split
  · rfl
  · rw [List.reverse_append, List.reverse_reverse]

/-- What is left of a routed URL without its trailing slashes. -/
theorem trimDirectory_cases {scheme : Text} (rest : Text) :
    (∃ tail, trimDirectory (scheme ++ "://".toList ++ rest) = scheme ++ "://".toList ++ tail) ∨
      trimDirectory (scheme ++ "://".toList ++ rest) = scheme ++ [':'] := by
  rw [trimDirectory_append]
  split
  · right
    have colon : trimDirectory "://".toList = [':'] := by decide
    rw [trimDirectory_append, colon, if_neg (by decide)]
  · exact .inl ⟨_, rfl⟩

theorem Walks.opensGlob {pattern : Text} {walk : S3GlobResult} {listed : ParsedS3Url}
    (walks : Walks environment opener pattern walk listed) :
    openGlob environment pattern (readFrom opener.settings? pattern) = .ok walk ∧
      walk.finished = false ∧
      (readFrom opener.settings? pattern).s3UrlCompatibilityMode = false := by
  rcases walks with ⟨opens, parses⟩
  rw [globFilesExtended] at opens
  split at opens
  · contradiction
  · refine ⟨opens, ?_⟩
    rcases openGlob_cases opens with ⟨-, -, empty⟩ | unfinished
    · rw [empty] at parses
      contradiction
    · exact unfinished

/-- The parts of a directory without a query string, as its walk is opened. -/
structure DirectoryParts (environment : Environment) (directory : Text) (walk : S3GlobResult)
    (listed : ParsedS3Url) (scheme bucket tail : Text) : Prop where
  plain : PlainScheme scheme
  noSlash : '/' ∉ bucket
  noQuestion : '?' ∉ bucket ∧ '?' ∉ tail
  nonempty : bucket ≠ []
  base_eq : trimDirectory directory ++ "/".toList = scheme ++ "://".toList ++ bucket ++ '/' :: tail
  parsed_eq : walk.parsedS3Url = parsedParts walk.authParams (lower scheme ++ "://".toList) bucket
    (scheme ++ "://".toList ++ bucket) (tail ++ "**".toList)
  listed_bucket : listed.bucket = bucket
  listed_key : listed.key = literalPart (tail ++ "**".toList)
  isFlat : IsFlat environment walk listed
  start : walk.mainContinuationToken = [] ∧ walk.expandedFiles = []

theorem Walks.parts {walk : S3GlobResult} {listed : ParsedS3Url}
    (walks : Walks environment opener (trimDirectory directory ++ "/**".toList) walk listed)
    (routed : ∃ scheme rest, directory = scheme ++ "://".toList ++ rest ∧ PlainScheme scheme)
    (noQuestion : '?' ∉ directory) :
    ∃ scheme bucket tail, DirectoryParts environment directory walk listed scheme bucket tail := by
  rcases walks.opensGlob with ⟨opens, unfinished, mode⟩
  rcases openGlob_eq_ok mode opens unfinished with ⟨resolves, -, walkEq⟩
  have noQuestionTrimmed : '?' ∉ trimDirectory directory ++ "/".toList := by
    rw [List.mem_append, not_or]
    exact ⟨fun member => noQuestion ((List.rdropWhile_prefix _ directory).subset member), by decide⟩
  have hasScheme : ∃ scheme rest, trimDirectory directory ++ "/**".toList =
      scheme ++ "://".toList ++ rest ∧ PlainScheme scheme := by
    rcases routed with ⟨scheme, rest, rfl, plain⟩
    rcases @trimDirectory_cases scheme rest with ⟨tail, eq⟩ | eq
    · exact ⟨scheme, tail ++ "/**".toList, by rw [eq, List.append_assoc], plain⟩
    · exfalso
      rcases resolve_eq_ok_iff.mp resolves with ⟨first, read, parsesFirst, -⟩
      rw [eq, List.append_assoc] at parsesFirst
      exact parse_ne_ok_of_unrooted plain (by decide) (by decide) parsesFirst
  rcases exists_opened hasScheme mode opens unfinished walks.parses with
    ⟨scheme, bucket, patternTail, opened⟩
  have cut : trimDirectory directory ++ "/".toList ++ "**".toList =
      (scheme ++ "://".toList ++ bucket ++ "/".toList) ++ patternTail := by
    have pattern := opened.pattern_eq
    simpa using pattern
  obtain ⟨tail, baseEq, rfl⟩ : ∃ tail, trimDirectory directory ++ "/".toList =
      scheme ++ "://".toList ++ bucket ++ "/".toList ++ tail ∧
        patternTail = tail ++ "**".toList := by
    rcases List.append_eq_append_iff.mp cut with ⟨middle, longer, stars⟩ | ⟨middle, eq, stars⟩
    · -- What the base lacks of the bucket and its slash would be stars.
      cases middle using List.reverseRecOn with
      | nil =>
          refine ⟨[], ?_, stars.symm⟩
          rw [List.append_nil] at longer ⊢
          exact longer.symm
      | append_singleton middle last =>
          exfalso
          rw [← List.append_assoc] at longer
          have slash : '/' = last := List.singleton_inj.mp (List.append_inj' longer rfl).2
          have isStar : last ∈ "**".toList := by
            rw [stars]
            simp
          rw [← slash] at isStar
          revert isStar
          decide
    · exact ⟨middle, eq, stars⟩
  have noQuestionTail : '?' ∉ tail := by
    rw [baseEq] at noQuestionTrimmed
    exact fun member => noQuestionTrimmed (List.mem_append_right _ member)
  have noQuestionPattern : '?' ∉ tail ++ "**".toList := by
    rw [List.mem_append, not_or]
    exact ⟨noQuestionTail, by decide⟩
  have keyEq : walk.parsedS3Url.key = tail ++ "**".toList := by
    rw [opened.parsed_eq, parsedParts, splitRest_of_not_mem noQuestionPattern]
  have parsesShared := walks.parses
  rw [opened.shared_eq, parse_append opened.plain opened.noSlash opened.noQuestion opened.nonempty
    opened.mode] at parsesShared
  refine ⟨scheme, bucket, tail, opened.plain, opened.noSlash,
    ⟨opened.noQuestion, noQuestionTail⟩, opened.nonempty, ?_, opened.parsed_eq, ?_, ?_, ?_, ?_⟩
  · simpa using baseEq
  · rw [← Except.ok.inj parsesShared]
    rfl
  · have noQuestionLiteral : '?' ∉ literalPart (tail ++ "**".toList) :=
      fun member => noQuestionPattern ((List.takeWhile_prefix _).subset member)
    rw [← Except.ok.inj parsesShared, keyEq, parsedParts, splitRest_of_not_mem noQuestionLiteral]
  · rcases exists_find_le "**".toList tail [] with ⟨position, found, -⟩
    have recursive : contains walk.parsedS3Url.key "**".toList = true := by
      rw [List.append_nil] at found
      rw [keyEq, contains, found]
      rfl
    refine ⟨unfinished, ?_, ?_, ?_, ?_, walks.parses⟩
    · rw [opened.walk_eq]
    · rw [opened.walk_eq]
    · rw [opened.walk_eq]
      exact GlobType.noConfusion
    · rw [shouldInvestigateRecursiveGlob, if_pos]
      rw [recursive, Bool.or_true]
  · rw [opened.walk_eq]
    exact ⟨rfl, rfl⟩

/-- A directory with a query string is walked only for a wildcard before it. -/
theorem Walks.exists_wildcard {walk : S3GlobResult} {listed : ParsedS3Url}
    (walks : Walks environment opener (trimDirectory directory ++ "/**".toList) walk listed)
    (question : '?' ∈ directory) :
    ∃ byte ∈ directory.takeWhile (· ≠ '?'), byte ∈ wildcards := by
  rcases walks.opensGlob with ⟨opens, unfinished, mode⟩
  rcases openGlob_eq_ok mode opens unfinished with ⟨resolves, ⟨position, found⟩, -⟩
  rcases resolve_eq_ok_iff.mp resolves with ⟨first, read, -, reads, finalizes, parses⟩
  have resolvedMode : walk.authParams.s3UrlCompatibilityMode = false := by
    rw [finalizeAuthParams_compatibility finalizes, readQueryParams_compatibility reads, mode]
  rw [parse_trimmedS3Url resolvedMode parses] at found
  have whole : trimDirectory directory ++ directory.rtakeWhile (· == '/') = directory :=
    List.rdropWhile_append_rtakeWhile
  have inTrimmed : '?' ∈ trimDirectory directory := by
    rw [← whole] at question
    rcases List.mem_append.mp question with inFront | inSlashes
    · exact inFront
    · have slash := List.mem_rtakeWhile_imp inSlashes
      contradiction
  rcases List.eq_append_cons_of_mem inTrimmed with ⟨front, back, eq, free⟩
  rw [eq, List.append_assoc, List.cons_append, takeWhile_ne_append free] at found
  rw [← whole, eq, List.append_assoc, List.cons_append, takeWhile_ne_append free]
  exact exists_of_findFirstOf found

/-! ## What is listed -/

theorem KeepsFiles.of_perm {files others : List Text} (permuted : files.Perm others)
    (keeps : KeepsFiles opener content target directory files) :
    KeepsFiles opener content target directory others := by
  rcases keeps with ⟨file, member, unread⟩ | ⟨rfl, noKeys⟩
  · exact .inl ⟨file, permuted.mem_iff.mp member, unread⟩
  · exact .inr ⟨permuted.symm.eq_nil, noKeys⟩

/-- The pattern is no file of the directory that is read as a URL. -/
theorem not_readsAsUrl_pattern :
    ¬ ReadsAsUrl opener (trimDirectory directory ++ "/".toList)
      (trimDirectory directory ++ "/**".toList) := by
  rintro ⟨name, resolved, eq, resolves⟩
  have stars : trimDirectory directory ++ "/**".toList =
      trimDirectory directory ++ "/".toList ++ "**".toList := by
    simp
  rw [stars] at eq
  rcases resolvePath_eq_ok resolves with ⟨parsedUrl, authParams, found, -⟩
  rcases resolve_eq_ok_iff.mp found with ⟨first, read, parses, -⟩
  rw [← List.append_cancel_left eq] at parses
  contradiction

/-- The files of a directory: its pattern alone, or what its walk reports. -/
theorem globbedFiles_cases {pattern : Text} {calls : Nat} {files : List Text}
    (globs : globbedFiles environment opener calls pattern = some (.ok files)) :
    files = [pattern] ∨ ∃ walk listed last, Walks environment opener pattern walk listed ∧
      expandAll environment calls walk = some (.ok last) ∧ files = last.expandedFiles := by
  rw [globbedFiles] at globs
  cases opens : globFilesExtended environment opener pattern with
  | error error =>
      rw [opens] at globs
      cases globs
  | ok walk =>
      rw [opens] at globs
      rcases Option.map_eq_some_iff.mp globs with ⟨ended, expands, isFiles⟩
      cases ended with
      | error error => cases isFiles
      | ok last =>
          cases isFiles
          have opensGlob : openGlob environment pattern (readFrom opener.settings? pattern) =
              .ok walk := by
            rw [globFilesExtended] at opens
            split at opens
            · contradiction
            · exact opens
          rcases openGlob_cases opensGlob with ⟨finished, single, -⟩ | ⟨unfinished, mode⟩
          · left
            rw [expandAll_of_finished finished] at expands
            cases expands
            exact single
          · right
            cases calls with
            | zero =>
                rw [expandAll, if_neg (by simp [unfinished])] at expands
                contradiction
            | succ calls =>
                have firstCall := expands
                rw [expandAll, if_neg (by simp [unfinished])] at firstCall
                cases next : expandNextPath environment walk with
                | error error =>
                    rw [next] at firstCall
                    cases firstCall
                | ok state =>
                    have reached : expandPaths environment (0 + 1) walk = .ok state := by
                      rw [expandPaths, next]
                      rfl
                    rcases exists_parse_sharedPath mode opensGlob unfinished reached with
                      ⟨listed, parses⟩
                    exact ⟨walk, listed, last, ⟨opens, parses⟩, expands, rfl⟩

/-- A directory's walk ends with the URLs of the listed keys that match. -/
theorem DirectoryParts.expandAll {walk : S3GlobResult} {listed : ParsedS3Url}
    {scheme bucket tail : Text}
    (parts : DirectoryParts environment directory walk listed scheme bucket tail)
    (lists : ListsFlat environment bucket content) :
    ∃ calls last, Glob.expandAll environment calls walk = some (.ok last) ∧
      last.expandedFiles.Perm (reportedUrls environment.glob walk.parsedS3Url
        (content.filter fun key => listed.key.isPrefixOf key)) := by
  rcases lists listed.key with ⟨keys, pages, permuted⟩
  rw [← parts.listed_bucket] at pages
  rcases expandAll_flat pages parts.isFlat parts.start.1 with ⟨calls, last, expands, files⟩
  refine ⟨calls, last, expands, ?_⟩
  rw [files, parts.start.2, List.nil_append]
  exact reportedUrls_perm permuted

/-- A reported URL is the base path of the directory followed by a name only if
its key is. -/
theorem DirectoryParts.key_eq {walk : S3GlobResult} {listed : ParsedS3Url}
    {scheme bucket tail key name : Text}
    (parts : DirectoryParts environment directory walk listed scheme bucket tail)
    (eq : resultFullUrl walk.parsedS3Url key = trimDirectory directory ++ "/".toList ++ name) :
    key = tail ++ name := by
  have free : '?' ∉ tail ++ "**".toList := by
    rw [List.mem_append, not_or]
    exact ⟨parts.noQuestion.2, by decide⟩
  rw [resultFullUrl_eq, parts.parsed_eq, parts.base_eq, parsedParts, splitRest_of_not_mem free,
    querySuffix_nil, List.append_nil, List.append_assoc _ ('/' :: tail), List.cons_append] at eq
  have aligned : (lower scheme ++ "://".toList ++ bucket).length =
      (scheme ++ "://".toList ++ bucket).length := by
    simp [lower]
  exact (List.cons.inj (List.append_inj eq aligned).2).2

/-- A directory without a query string resolves to its bucket and what follows it. -/
theorem DirectoryParts.target_eq {walk : S3GlobResult} {listed : ParsedS3Url}
    {scheme bucket tail : Text}
    (parts : DirectoryParts environment directory walk listed scheme bucket tail)
    (noQuestion : '?' ∉ directory) {params finalized : S3AuthParams}
    (mode : params.s3UrlCompatibilityMode = false)
    (names : resolve opener.decode (directoryUrl directory) params = .ok (target, finalized)) :
    target.bucket = bucket ∧ target.key = tail := by
  rcases resolve_eq_ok_iff.mp names with ⟨first, read, -, reads, finalizes, parses⟩
  have resolvedMode : finalized.s3UrlCompatibilityMode = false := by
    rw [finalizeAuthParams_compatibility finalizes, readQueryParams_compatibility reads, mode]
  have noRest : directory.dropWhile (· ≠ '?') = [] := by
    rw [List.dropWhile_eq_nil_iff]
    intro byte member
    exact decide_eq_true fun eq => noQuestion (eq ▸ member)
  have base : directoryUrl directory = trimDirectory directory ++ "/".toList := by
    rw [directoryUrl, takeWhile_ne_of_not_mem noQuestion, noRest]
    rfl
  rw [base, parts.base_eq, parse_append parts.plain parts.noSlash parts.noQuestion.1
    parts.nonempty resolvedMode] at parses
  rw [← Except.ok.inj parses, parsedParts, splitRest_of_not_mem parts.noQuestion.2]
  exact ⟨rfl, rfl⟩

/-! ## Directories without a wildcard -/

/-- Segments without a wildcard match themselves. -/
def MatchesLiterals (glob : Text → Text → Bool) : Prop :=
  ∀ segment, (∀ byte ∈ segment, byte ∉ wildcards) → glob segment segment = true

/-- What follows the bucket of a directory ends in a slash. -/
theorem DirectoryParts.tail_cases {walk : S3GlobResult} {listed : ParsedS3Url}
    {scheme bucket tail : Text}
    (parts : DirectoryParts environment directory walk listed scheme bucket tail) :
    tail = [] ∨ ∃ front, tail = front ++ ['/'] := by
  cases tail using List.reverseRecOn with
  | nil => exact .inl rfl
  | append_singleton front last =>
      have ends := parts.base_eq
      rw [← List.cons_append, ← List.append_assoc] at ends
      have slash : '/' = last := List.singleton_inj.mp (List.append_inj' ends rfl).2
      exact .inr ⟨front, slash ▸ rfl⟩

/-- A directory without a wildcard lists all the keys below it. -/
theorem DirectoryParts.reportedUrls_literal {walk : S3GlobResult} {listed : ParsedS3Url}
    {scheme bucket tail : Text}
    (parts : DirectoryParts environment directory walk listed scheme bucket tail)
    (literal : ∀ byte ∈ tail, byte ∉ wildcards) (globs : MatchesLiterals environment.glob)
    (noEmpty : [] ∉ content) :
    reportedUrls environment.glob walk.parsedS3Url
        (content.filter fun key => listed.key.isPrefixOf key) =
      (keysUnder content tail).map (resultFullUrl walk.parsedS3Url) := by
  have noQuestionPattern : '?' ∉ tail ++ "**".toList := by
    rw [List.mem_append, not_or]
    exact ⟨parts.noQuestion.2, by decide⟩
  have patternKey : walk.parsedS3Url.key = tail ++ "**".toList := by
    rw [parts.parsed_eq, parsedParts, splitRest_of_not_mem noQuestionPattern]
  have listedKey : listed.key = tail := by
    rw [parts.listed_key, literalPart, List.takeWhile_append_of_pos]
    · simp [wildcards]
    · intro byte member
      exact decide_eq_true (literal byte member)
  -- The directory ends in a slash, so its segments and those of a name stay apart.
  obtain ⟨front, cut, within⟩ : ∃ front, (∀ name,
      segments (tail ++ name) = segments front ++ segments name) ∧ front ⊆ tail := by
    rcases parts.tail_cases with rfl | ⟨front, rfl⟩
    · exact ⟨[], fun name => rfl, List.nil_subset _⟩
    · refine ⟨front, fun name => ?_, List.subset_append_left front ['/']⟩
      rw [List.append_assoc, List.singleton_append, segments_append_cons]
  have accepted : ∀ key, tail <+: key → key ≠ [] → key.getLast? ≠ some '/' →
      accepts environment.glob walk.parsedS3Url key = true := by
    rintro key ⟨name, rfl⟩ nonempty noMarker
    have hasName : segments name ≠ [] := by
      cases name with
      | cons first name =>
          exact segments_ne_nil (List.cons_ne_nil first name) (by simpa using noMarker)
      | nil =>
          rw [List.append_nil] at nonempty noMarker
          rcases parts.tail_cases with rfl | ⟨front, rfl⟩
          · exact absurd rfl nonempty
          · exact absurd List.getLast?_concat noMarker
    rw [accepts, patternKey, cut, cut,
      segments_of_not_mem (by decide) (by decide : "**".toList ≠ [])]
    apply matchSegments_literal _ hasName
    intro segment member
    have bytes : ∀ byte ∈ segment, byte ∉ wildcards := fun byte inSegment =>
      literal byte (within (mem_of_mem_segments member inSegment))
    refine ⟨?_, globs segment bytes⟩
    rintro rfl
    exact bytes '*' (by decide) (by decide)
  rw [reportedUrls, keysUnder, listedKey, List.filter_filter, List.filter_filter]
  congr 1
  apply List.filter_congr
  intro key member
  have nonempty : key ≠ [] := fun empty => noEmpty (empty ▸ member)
  cases isPrefix : tail.isPrefixOf key with
  | false => simp
  | true =>
      by_cases marker : key.getLast? = some '/'
      · simp [marker]
      · simp [marker, accepted key (List.isPrefixOf_iff_prefix.mp isPrefix) nonempty marker]

/-- A directory without a wildcard or a query string keeps its keys exactly if
there are none, or one of them does not go on with a URL. -/
theorem keepsKeys_literal_iff
    (joins : joinPath (trimDirectory directory) "**".toList =
      trimDirectory directory ++ "/**".toList)
    (routed : ∃ scheme rest, directory = scheme ++ "://".toList ++ rest ∧ PlainScheme scheme)
    {finalized : S3AuthParams}
    (names : resolve opener.decode (directoryUrl directory) (readFrom opener.settings?
      (joinPath (trimDirectory directory) "**".toList)) = .ok (target, finalized))
    (noQuestion : '?' ∉ directory) (literal : ∀ byte ∈ directory, byte ∉ wildcards)
    (globs : MatchesLiterals environment.glob) (noEmpty : [] ∉ content) :
    KeepsKeys joinPath environment opener content target directory ↔
      ∀ walk listed,
        Walks environment opener (joinPath (trimDirectory directory) "**".toList) walk listed →
          (∃ key ∈ keysUnder content target.key,
            ¬ ReadsAsUrl opener (trimDirectory directory ++ "/".toList)
              (resultFullUrl walk.parsedS3Url key)) ∨
            keysUnder content target.key = [] := by
  apply forall_congr'
  intro walk
  apply forall_congr'
  intro listed
  apply imp_congr_right
  intro walks
  rcases (joins ▸ walks).parts routed noQuestion with ⟨scheme, bucket, tail, parts⟩
  rcases parts.target_eq noQuestion walks.opensGlob.2.2 names with ⟨-, isTarget⟩
  have literalTail : ∀ byte ∈ tail, byte ∉ wildcards := by
    intro byte member
    have inBase : byte ∈ trimDirectory directory ++ "/".toList := by
      rw [parts.base_eq]
      exact List.mem_append_right _ (List.mem_cons_of_mem _ member)
    rcases List.mem_append.mp inBase with inDirectory | isSlash
    · exact literal byte ((List.rdropWhile_prefix _ directory).subset inDirectory)
    · rw [List.mem_singleton.mp isSlash]
      decide
  rw [parts.reportedUrls_literal literalTail globs noEmpty, isTarget, KeepsFiles, isTarget]
  simp only [List.mem_map, exists_exists_and_eq_and, List.map_eq_nil_iff, and_self]

end Walking

end Httpfs.S3.Delete
