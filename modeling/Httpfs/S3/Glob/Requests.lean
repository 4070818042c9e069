import Httpfs.S3.Glob.Tour

/-!
# The requests of a call

A call of `ExpandNextPath` sends at most one list request, and a second one where it
changes over to listing by directory.  It reads nothing of the service but the answers.
-/

namespace Httpfs.S3.Glob

open Text S3GlobMatchMode

variable {environment : Environment}

/-! ## Requests -/

/-- The list request for a URL, none where the URL cannot be read. -/
def queryFor (authParams : S3AuthParams) (path continuationToken : Text) (mode : S3ListMode) :
    List S3ListQuery :=
  match parse path authParams with
  | .ok parsedUrl => [⟨parsedUrl.bucket, parsedUrl.key, continuationToken, mode⟩]
  | .error _ => []

/-- The URL of the directory that a walk lists. -/
def currentUrl (decode : Text → Text) (result : S3GlobResult) : Text :=
  decode (result.parsedS3Url.urlPrefix ++ result.parsedS3Url.bucket ++ "/".toList ++
    result.currentCommonPrefix)

/-- Whether a call lists the top level a second time, by directory. -/
def switches (environment : Environment) (result : S3GlobResult) : Bool :=
  shouldInvestigateRecursiveGlob environment result &&
    (queryFor result.authParams result.sharedPath result.mainContinuationToken .flat).any
      fun query => !(environment.service query).continuationToken.isEmpty &&
        containsDenseDirectories (listedFiles environment (environment.service query))

/-- The list requests that a call of `ExpandNextPath` sends. -/
def sentQueries (environment : Environment) (result : S3GlobResult) : List S3ListQuery :=
  if result.finished then []
  else if !result.currentCommonPrefix.isEmpty then
    if mayMatch environment.glob result.parsedS3Url
        (environment.decode result.currentCommonPrefix) then
      queryFor result.authParams (currentUrl environment.decode result)
        result.commonPrefixContinuationToken .hierarchical
    else []
  else if !result.commonPrefixes.isEmpty then []
  else
    queryFor result.authParams result.sharedPath result.mainContinuationToken
        (if result.globType = .hierarchical then .hierarchical else .flat) ++
      if switches environment result then
        queryFor result.authParams result.sharedPath result.mainContinuationToken .hierarchical
      else []

/-! ## Answers -/

theorem listRequest_congr {service : S3ListQuery → S3ListObjectsV2Result}
    {authParams : S3AuthParams} {path continuationToken : Text} {mode : S3ListMode}
    (same : ∀ query ∈ queryFor authParams path continuationToken mode,
      service query = environment.service query) :
    listRequest { environment with service } authParams path continuationToken mode =
      listRequest environment authParams path continuationToken mode := by
  rw [listRequest, listRequest]
  unfold queryFor at same
  cases parses : parse path authParams with
  | error error => rfl
  | ok parsedUrl =>
      rw [parses] at same
      exact congrArg Except.ok (same _ List.mem_cons_self)

theorem exists_queryFor {authParams : S3AuthParams} {path continuationToken : Text}
    {mode : S3ListMode} {response : S3ListObjectsV2Result}
    (asks : listRequest environment authParams path continuationToken mode = .ok response) :
    ∃ query, queryFor authParams path continuationToken mode = [query] ∧
      environment.service query = response := by
  obtain ⟨parsedUrl, parses, answers⟩ := bind_eq_ok_iff.mp asks
  refine ⟨⟨parsedUrl.bucket, parsedUrl.key, continuationToken, mode⟩, ?_, Except.ok.inj answers⟩
  rw [queryFor, parses]

theorem not_hierarchical_of_shouldInvestigate {result : S3GlobResult}
    (investigates : shouldInvestigateRecursiveGlob environment result = true) :
    result.globType ≠ .hierarchical := by
  intro hierarchical
  rw [shouldInvestigateRecursiveGlob, hierarchical] at investigates
  contradiction

/-- A call reads nothing of the service but the answers to what it sends. -/
theorem expandNextPath_congr {service : S3ListQuery → S3ListObjectsV2Result}
    {result : S3GlobResult}
    (same : ∀ query ∈ sentQueries environment result, service query = environment.service query) :
    expandNextPath { environment with service } result = expandNextPath environment result := by
  rw [expandNextPath, expandNextPath]
  by_cases finished : result.finished = true
  · rw [if_pos finished, if_pos finished]
  · rw [if_neg finished, if_neg finished]
    rw [sentQueries, if_neg finished] at same
    by_cases inDirectory : (!result.currentCommonPrefix.isEmpty) = true
    · rw [if_pos inDirectory, if_pos inDirectory]
      rw [if_pos inDirectory] at same
      have scans : scanCurrentCommonPrefix { environment with service } result =
          scanCurrentCommonPrefix environment result := by
        rw [scanCurrentCommonPrefix, scanCurrentCommonPrefix]
        dsimp only
        by_cases matching : matchSegments environment.glob prefixMode
            (segments result.parsedS3Url.key)
            (segments (environment.decode result.currentCommonPrefix)) = true
        · rw [mayMatch, if_pos matching] at same
          have asks := listRequest_congr same
          rw [currentUrl] at asks
          rw [if_pos matching, if_pos matching, asks]
          rfl
        · rw [if_neg matching, if_neg matching]
      rw [scans]
      rfl
    · rw [if_neg inDirectory, if_neg inDirectory]
      rw [if_neg inDirectory] at same
      have scans : scanTopLevel { environment with service } result =
          scanTopLevel environment result := by
        rw [scanTopLevel, scanTopLevel]
        by_cases nonempty : (!result.commonPrefixes.isEmpty) = true
        · rw [if_pos nonempty, if_pos nonempty]
        · rw [if_neg nonempty, if_neg nonempty]
          rw [if_neg nonempty] at same
          have first := listRequest_congr fun query member =>
            same query (List.mem_append_left _ member)
          dsimp only
          rw [first]
          cases asks : listRequest environment result.authParams result.sharedPath
              result.mainContinuationToken
              (if result.globType = .hierarchical then .hierarchical else .flat) with
          | error error => rfl
          | ok response =>
              have chooses (investigates : (shouldInvestigateRecursiveGlob environment result &&
                  !response.continuationToken.isEmpty) = true) :
                  selectGlobType { environment with service } result response =
                    selectGlobType environment result response := by
                rw [selectGlobType, selectGlobType]
                by_cases sparse : (!containsDenseDirectories
                    (listedFiles environment response)) = true
                · exact (if_pos sparse).trans (if_pos sparse).symm
                · rw [Bool.and_eq_true] at investigates
                  have flat := not_hierarchical_of_shouldInvestigate investigates.1
                  rw [if_neg flat] at asks same
                  obtain ⟨query, isQuery, answers⟩ := exists_queryFor asks
                  have switching : switches environment result = true := by
                    rw [switches, investigates.1, isQuery, List.any_cons, answers, investigates.2]
                    simpa using sparse
                  rw [if_pos switching] at same
                  have second := listRequest_congr fun query member =>
                    same query (List.mem_append_right _ member)
                  rw [second]
                  exact (if_neg sparse).trans (if_neg sparse).symm
              change (if (shouldInvestigateRecursiveGlob environment result &&
                  !response.continuationToken.isEmpty) = true then _ else _) =
                if (shouldInvestigateRecursiveGlob environment result &&
                  !response.continuationToken.isEmpty) = true then _ else _
              by_cases investigates : (shouldInvestigateRecursiveGlob environment result &&
                  !response.continuationToken.isEmpty) = true
              · rw [if_pos investigates, if_pos investigates, chooses investigates]
                rfl
              · rw [if_neg investigates, if_neg investigates]
                rfl
      rw [scans]
      rfl

/-- What a call sends depends on the answer to its first request only. -/
theorem sentQueries_congr {service : S3ListQuery → S3ListObjectsV2Result} {result : S3GlobResult}
    (same : ∀ query ∈ sentQueries environment result, service query = environment.service query) :
    sentQueries { environment with service } result = sentQueries environment result := by
  rw [sentQueries, sentQueries]
  by_cases finished : result.finished = true
  · rw [if_pos finished, if_pos finished]
  · rw [if_neg finished, if_neg finished]
    rw [sentQueries, if_neg finished] at same
    by_cases inDirectory : (!result.currentCommonPrefix.isEmpty) = true
    · rw [if_pos inDirectory, if_pos inDirectory]
    · rw [if_neg inDirectory, if_neg inDirectory]
      rw [if_neg inDirectory] at same
      by_cases nonempty : (!result.commonPrefixes.isEmpty) = true
      · rw [if_pos nonempty, if_pos nonempty]
      · rw [if_neg nonempty, if_neg nonempty]
        rw [if_neg nonempty] at same
        have again : shouldInvestigateRecursiveGlob { environment with service } result =
          shouldInvestigateRecursiveGlob environment result := rfl
        have switching : switches { environment with service } result =
            switches environment result := by
          rw [switches, switches, again]
          cases investigates : shouldInvestigateRecursiveGlob environment result with
          | false => rfl
          | true =>
              rw [if_neg (not_hierarchical_of_shouldInvestigate investigates)] at same
              rw [Bool.true_and, Bool.true_and]
              unfold queryFor at same ⊢
              cases parses : parse result.sharedPath result.authParams with
              | error error => rfl
              | ok parsedUrl =>
                  rw [parses] at same
                  have answer := same _ (List.mem_append_left _ List.mem_cons_self)
                  rw [List.any_cons, List.any_cons]
                  dsimp only
                  rw [answer]
                  rfl
        rw [switching]

end Httpfs.S3.Glob
