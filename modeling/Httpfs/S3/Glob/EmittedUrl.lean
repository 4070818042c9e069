import Httpfs.S3.Glob.Opening
import Httpfs.Text.Percent

/-!
# Reading the URLs of a walk

A walk reports a listed key as a URL put together from the pattern's prefix and
bucket, the key and the pattern's query string.  Reading that URL splits it
again, at the first question mark.
-/

namespace Httpfs.S3.Glob

open Text

variable {environment : Environment} {globPattern : Text} {authParams : S3AuthParams}

/-! ## What a call keeps -/

/-- The parts of a walk no call changes. -/
structure SameTarget (before after : S3GlobResult) : Prop where
  parsed : after.parsedS3Url = before.parsedS3Url
  auth : after.authParams = before.authParams
  shared : after.sharedPath = before.sharedPath

theorem SameTarget.rfl {result : S3GlobResult} : SameTarget result result :=
  ⟨Eq.refl _, Eq.refl _, Eq.refl _⟩

theorem SameTarget.trans {first second third : S3GlobResult} (front : SameTarget first second)
    (back : SameTarget second third) : SameTarget first third :=
  ⟨back.parsed.trans front.parsed, back.auth.trans front.auth, back.shared.trans front.shared⟩

theorem SameTarget.select {before after : S3GlobResult} (same : SameTarget before after) :
    SameTarget before (selectNextCommonPrefix after) := by
  unfold selectNextCommonPrefix
  split
  · exact ⟨same.parsed, same.auth, same.shared⟩
  · exact ⟨same.parsed, same.auth, same.shared⟩

theorem selectGlobType_sameTarget {result next : S3GlobResult}
    {response chosen : S3ListObjectsV2Result}
    (selects : selectGlobType environment result response = .ok (next, chosen)) :
    SameTarget result next := by
  unfold selectGlobType at selects
  split at selects
  · cases selects
    exact ⟨rfl, rfl, rfl⟩
  · obtain ⟨again, -, selects⟩ := bind_eq_ok_iff.mp selects
    cases selects
    exact ⟨rfl, rfl, rfl⟩

theorem scanTopLevel_sameTarget {result next : S3GlobResult} {s3Keys : List Text}
    (scans : scanTopLevel environment result = .ok (next, s3Keys)) : SameTarget result next := by
  unfold scanTopLevel at scans
  split at scans
  · contradiction
  · obtain ⟨response, -, scans⟩ := bind_eq_ok_iff.mp scans
    dsimp only at scans
    split at scans
    · obtain ⟨⟨chosen, page⟩, chooses, scans⟩ := bind_eq_ok_iff.mp scans
      cases scans
      have keeps := selectGlobType_sameTarget chooses
      exact SameTarget.select ⟨keeps.parsed, keeps.auth, keeps.shared⟩
    · obtain ⟨⟨chosen, page⟩, chooses, scans⟩ := bind_eq_ok_iff.mp scans
      cases chooses
      cases scans
      exact SameTarget.select ⟨rfl, rfl, rfl⟩

theorem scanCurrentCommonPrefix_sameTarget {result next : S3GlobResult} {s3Keys : List Text}
    (scans : scanCurrentCommonPrefix environment result = .ok (next, s3Keys)) :
    SameTarget result next := by
  unfold scanCurrentCommonPrefix at scans
  dsimp only at scans
  split at scans
  · obtain ⟨response, -, scans⟩ := bind_eq_ok_iff.mp scans
    rw [pure_bind] at scans
    dsimp only at scans
    split at scans
    · cases scans
      exact SameTarget.select ⟨rfl, rfl, rfl⟩
    · cases scans
      exact ⟨rfl, rfl, rfl⟩
  · rw [pure_bind] at scans
    dsimp only at scans
    split at scans
    · cases scans
      exact SameTarget.select ⟨rfl, rfl, rfl⟩
    · cases scans
      exact ⟨rfl, rfl, rfl⟩

theorem expandNextPath_sameTarget {result next : S3GlobResult}
    (expands : expandNextPath environment result = .ok next) : SameTarget result next := by
  unfold expandNextPath at expands
  split at expands
  · cases expands
    exact .rfl
  · dsimp only at expands
    split at expands
    · obtain ⟨⟨scanned, s3Keys⟩, scans, expands⟩ := bind_eq_ok_iff.mp expands
      cases expands
      have keeps := scanCurrentCommonPrefix_sameTarget scans
      exact ⟨keeps.parsed, keeps.auth, keeps.shared⟩
    · obtain ⟨⟨scanned, s3Keys⟩, scans, expands⟩ := bind_eq_ok_iff.mp expands
      cases expands
      have keeps := scanTopLevel_sameTarget scans
      exact ⟨keeps.parsed, keeps.auth, keeps.shared⟩

/-- No number of calls changes the target of a walk. -/
theorem expandPaths_sameTarget {calls : Nat} {result last : S3GlobResult}
    (expands : expandPaths environment calls result = .ok last) : SameTarget result last := by
  induction calls generalizing result with
  | zero =>
      cases expands
      exact .rfl
  | succ calls inductionHypothesis =>
      obtain ⟨next, first, rest⟩ := bind_eq_ok_iff.mp expands
      exact (expandNextPath_sameTarget first).trans (inductionHypothesis rest)

/-- The first call of a walk sends a list request for the literal part of the pattern. -/
theorem exists_parse_sharedPath {walk state : S3GlobResult} {calls : Nat}
    (mode : authParams.s3UrlCompatibilityMode = false)
    (opens : openGlob environment globPattern authParams = .ok walk)
    (unfinished : walk.finished = false)
    (reached : expandPaths environment (calls + 1) walk = .ok state) :
    ∃ listed, parse walk.sharedPath walk.authParams = .ok listed := by
  obtain ⟨-, -, walkEq⟩ := openGlob_eq_ok mode opens unfinished
  obtain ⟨next, first, -⟩ := bind_eq_ok_iff.mp reached
  have current : walk.currentCommonPrefix = [] := by rw [walkEq]
  have stack : walk.commonPrefixes = [] := by rw [walkEq]
  simp only [expandNextPath, unfinished, current, List.isEmpty_nil, Bool.not_true,
    Bool.false_eq_true, if_false] at first
  obtain ⟨scanned, scans, -⟩ := bind_eq_ok_iff.mp first
  simp only [scanTopLevel, stack, List.isEmpty_nil, Bool.not_true, Bool.false_eq_true,
    if_false] at scans
  obtain ⟨response, requests, -⟩ := bind_eq_ok_iff.mp scans
  obtain ⟨listed, parses, -⟩ := bind_eq_ok_iff.mp requests
  exact ⟨listed, parses⟩

/-! ## Reading back -/

/-- Resolving `url` from the parameters the pattern was resolved from gives the
pattern's provider prefix, bucket and parameters, and the key. -/
def Names (decode : Text → Text) (globPattern : Text) (authParams : S3AuthParams)
    (url key : Text) : Prop :=
  ∃ pattern parsedUrl resolved,
    resolve decode globPattern authParams = .ok (pattern, resolved) ∧
      resolve decode url authParams = .ok (parsedUrl, resolved) ∧
      parsedUrl.urlPrefix = pattern.urlPrefix ∧ parsedUrl.bucket = pattern.bucket ∧
      parsedUrl.key = key

/-- No question mark of the key is read as the start of a query string. -/
def KeepsKey (queryParam key : Text) : Prop :=
  '?' ∉ key ∨ queryParam = [] ∧ ∃ front, key = front ++ ['?'] ∧ '?' ∉ front

/-- The query string as it is put back after the key. -/
def querySuffix (queryParam : Text) : Text :=
  if queryParam.isEmpty then [] else '?' :: queryParam

@[simp]
theorem querySuffix_nil : querySuffix [] = [] :=
  rfl

theorem resultFullUrl_eq (parsedS3Url : ParsedS3Url) (key : Text) :
    resultFullUrl parsedS3Url key = parsedS3Url.urlPrefix ++ parsedS3Url.bucket ++
      '/' :: (key ++ querySuffix parsedS3Url.queryParam) := by
  unfold resultFullUrl querySuffix
  split <;> simp

theorem splitRest_of_keepsKey {queryParam key : Text} (keeps : KeepsKey queryParam key) :
    (splitRest (key ++ querySuffix queryParam)).1 = queryParam ∧
      (splitRest (key ++ querySuffix queryParam)).2.2 = key := by
  rcases keeps with free | ⟨rfl, front, rfl, free⟩
  · cases queryParam with
    | nil =>
        rw [querySuffix_nil, List.append_nil, splitRest_of_not_mem free]
        exact ⟨rfl, rfl⟩
    | cons first rest =>
        rw [querySuffix, if_neg (by simp), splitRest_append free]
        exact ⟨rfl, rfl⟩
  · rw [querySuffix_nil, List.append_nil, splitRest_append free]
    exact ⟨rfl, rfl⟩

theorem keepsKey_of_splitRest {queryParam key : Text}
    (same : (splitRest (key ++ querySuffix queryParam)).2.2 = key) :
    KeepsKey queryParam key := by
  by_cases question : '?' ∈ key
  · obtain ⟨front, back, rfl, free⟩ := List.eq_append_cons_of_mem question
    rw [List.append_assoc, List.cons_append, splitRest_append free] at same
    dsimp only at same
    split at same
    · rename_i empty
      rw [List.isEmpty_iff, List.append_eq_nil_iff] at empty
      obtain ⟨rfl, noSuffix⟩ := empty
      refine .inr ⟨?_, front, rfl, free⟩
      unfold querySuffix at noSuffix
      split at noSuffix
      · rename_i noQuery
        exact List.isEmpty_iff.mp noQuery
      · contradiction
    · have longer := congrArg List.length same
      simp at longer
  · exact .inl question

/-- A reported URL is read back as the listed key under the walk's parameters
exactly if the key's question marks leave the key whole. -/
theorem resultFullUrl_names_iff {reserved : Text → Bool} {aliases : List Text}
    {walk state : S3GlobResult} {calls : Nat} {key url : Text}
    (routed : (tryMatchUrlOrAlias globPattern
      (getSchemeAliasPrefixes reserved aliases)).isSome = true)
    (mode : authParams.s3UrlCompatibilityMode = false)
    (opens : openGlob environment globPattern authParams = .ok walk)
    (unfinished : walk.finished = false)
    (reached : expandPaths environment (calls + 1) walk = .ok state)
    (emitted : (appendMatchingFiles environment state [key]).expandedFiles =
      state.expandedFiles ++ [url]) :
    Names environment.decode globPattern authParams url key ↔
      KeepsKey state.parsedS3Url.queryParam key := by
  have keepsTarget := expandPaths_sameTarget reached
  obtain ⟨listed, parses⟩ := exists_parse_sharedPath mode opens unfinished reached
  obtain ⟨scheme, bucket, tail, opened⟩ :=
    exists_opened (exists_scheme_of_routed routed) mode opens unfinished parses
  have urlIs : url = resultFullUrl walk.parsedS3Url key := by
    simp only [appendMatchingFiles, List.append_cancel_left_eq, keepsTarget.parsed] at emitted
    obtain ⟨listedKey, single, rfl⟩ := List.map_eq_singleton_iff.mp emitted
    have member : listedKey ∈ [key] :=
      (List.mem_filter.mp (single ▸ List.mem_singleton_self listedKey)).1
    rw [List.mem_singleton.mp member]
  have urlEq : url = lower scheme ++ "://".toList ++ bucket ++
      '/' :: (key ++ querySuffix walk.parsedS3Url.queryParam) := by
    rw [urlIs, resultFullUrl_eq, opened.parsed_eq]
    rfl
  have queryParamEq : walk.parsedS3Url.queryParam = (splitRest tail).1 := by
    rw [opened.parsed_eq]
    rfl
  have parsesAt := fun (params : S3AuthParams) (plainMode : params.s3UrlCompatibilityMode = false) =>
    parse_append opened.plain.lower opened.noSlash opened.noQuestion opened.nonempty plainMode
      (key ++ querySuffix walk.parsedS3Url.queryParam)
  rw [keepsTarget.parsed]
  constructor
  · rintro ⟨pattern, parsedUrl, resolved, -, resolves, -, -, keyEq⟩
    obtain ⟨first, read, parsesFirst, reads, finalizes, parsesAgain⟩ :=
      resolve_eq_ok_iff.mp resolves
    have resolvedMode : resolved.s3UrlCompatibilityMode = false := by
      rw [finalizeAuthParams_compatibility finalizes, readQueryParams_compatibility reads, mode]
    rw [urlEq, parsesAt resolved resolvedMode] at parsesAgain
    apply keepsKey_of_splitRest
    rw [← Except.ok.inj parsesAgain] at keyEq
    exact keyEq
  · intro keeps
    obtain ⟨queryEq, keyEq⟩ := splitRest_of_keepsKey keeps
    obtain ⟨first, read, parsesFirst, reads, finalizes, parsesAgain⟩ :=
      resolve_eq_ok_iff.mp opened.resolves
    refine ⟨walk.parsedS3Url, _, walk.authParams, opened.resolves, resolve_eq_ok_iff.mpr
      ⟨_, read, urlEq ▸ parsesAt authParams mode, ?_, finalizes,
        urlEq ▸ parsesAt walk.authParams opened.mode⟩, ?_, ?_, keyEq⟩
    · rw [opened.pattern_eq, parse_append opened.plain opened.noSlash opened.noQuestion
        opened.nonempty mode] at parsesFirst
      rw [← Except.ok.inj parsesFirst] at reads
      change readQueryParams _ (splitRest (key ++ querySuffix walk.parsedS3Url.queryParam)).1 _ = _
      rw [queryEq, queryParamEq]
      exact reads
    · rw [opened.parsed_eq]
      change lower (lower scheme) ++ "://".toList = lower scheme ++ "://".toList
      rw [lower_lower]
    · rw [opened.parsed_eq]
      rfl

/-- A service whose only page lists the given keys. -/
def singlePage (keys : List Text) : Environment where
  decode := Percent.decode
  glob segment pattern := pattern == "*".toList || segment == pattern
  allowRecursiveGlobbing := none
  service _ := ⟨keys.map Percent.encode, [], []⟩

/-- The state of a walk over `s3://bucket/*` after its only call. -/
private def expandedBucket (files : List Text) : S3GlobResult where
  globPattern := "s3://bucket/*".toList
  finished := true
  authParams := { endpoint := "s3.amazonaws.com".toList }
  sharedPath := "s3://bucket/".toList
  parsedS3Url := parsedParts { endpoint := "s3.amazonaws.com".toList } "s3://".toList
    "bucket".toList "s3://bucket".toList "*".toList
  expandedFiles := files

/-- The walk over `s3://bucket/*` before its only call. -/
private def openedBucket : S3GlobResult :=
  { expandedBucket [] with finished := false }

private theorem openGlob_bucket (keys : List Text) :
    openGlob (singlePage keys) "s3://bucket/*".toList {} = .ok openedBucket :=
  rfl

private theorem bucket_routed :
    (tryMatchUrlOrAlias "s3://bucket/*".toList
      (getSchemeAliasPrefixes (fun _ => false) [])).isSome = true := by
  decide

theorem resultFullUrl_names_iff_plainKey :
    Names Percent.decode "s3://bucket/*".toList {} "s3://bucket/t.csv".toList "t.csv".toList := by
  have reached : expandPaths (singlePage ["t.csv".toList]) 1 openedBucket =
      .ok (expandedBucket ["s3://bucket/t.csv".toList]) :=
    rfl
  exact (resultFullUrl_names_iff bucket_routed rfl (openGlob_bucket _) rfl reached rfl).mpr
    (.inl (by decide))

/-- The key `x?s3_endpoint=evil` is reported as a URL that reads object `x` from
the endpoint the key names. -/
theorem resultFullUrl_redirected :
    openGlob (singlePage ["x?s3_endpoint=evil".toList]) "s3://bucket/*".toList {} =
        .ok openedBucket ∧
      expandPaths (singlePage ["x?s3_endpoint=evil".toList]) 1 openedBucket =
        .ok (expandedBucket ["s3://bucket/x?s3_endpoint=evil".toList]) ∧
      (resolve Percent.decode "s3://bucket/x?s3_endpoint=evil".toList {}).map
          (fun resolved => (resolved.1.key, resolved.2.endpoint)) =
        .ok ("x".toList, "evil".toList) ∧
      openedBucket.authParams.endpoint = "s3.amazonaws.com".toList ∧
      ¬ Names Percent.decode "s3://bucket/*".toList {} "s3://bucket/x?s3_endpoint=evil".toList
        "x?s3_endpoint=evil".toList := by
  have reads : (resolve Percent.decode "s3://bucket/x?s3_endpoint=evil".toList {}).map
      (fun resolved => (resolved.1.key, resolved.2.endpoint)) =
        .ok ("x".toList, "evil".toList) :=
    rfl
  refine ⟨rfl, rfl, reads, rfl, ?_⟩
  rintro ⟨pattern, parsedUrl, resolved, -, resolves, -, -, keyEq⟩
  rw [resolves] at reads
  have named : parsedUrl.key = "x".toList := (Prod.mk.inj (Except.ok.inj reads)).1
  rw [keyEq] at named
  revert named
  decide

end Httpfs.S3.Glob
