import Httpfs.S3.Glob.EmittedUrl

/-!
# Flat walks

A walk that lists no directories pages through all keys below the literal part
of its pattern.  It reports exactly the keys of the pages that match.
-/

namespace Httpfs.S3.Glob

open Text

variable {environment : Environment}

/-! ## Whole walks -/

/-- `ExpandNextPath` until the walk is finished, or none where `calls` calls do
not finish it. -/
def expandAll (environment : Environment) :
    (calls : Nat) → S3GlobResult → Option (Except ErrorData S3GlobResult)
  | 0, result => if result.finished then some (.ok result) else none
  | calls + 1, result =>
      if result.finished then some (.ok result)
      else
        match expandNextPath environment result with
        | .error error => some (.error error)
        | .ok next => expandAll environment calls next

theorem expandAll_of_finished {result : S3GlobResult} (finished : result.finished = true)
    (calls : Nat) : expandAll environment calls result = some (.ok result) := by
  cases calls <;> rw [expandAll, if_pos finished]

/-- How a walk ends does not depend on the number of calls granted to it. -/
theorem expandAll_unique {calls others : Nat} {result : S3GlobResult}
    {outcome other : Except ErrorData S3GlobResult}
    (ends : expandAll environment calls result = some outcome)
    (endsOther : expandAll environment others result = some other) : outcome = other := by
  induction calls generalizing others result with
  | zero =>
      rw [expandAll] at ends
      split at ends
      · rename_i finished
        rw [expandAll_of_finished finished] at endsOther
        exact Option.some.inj (ends.symm.trans endsOther)
      · contradiction
  | succ calls inductionHypothesis =>
      rw [expandAll] at ends
      split at ends
      · rename_i finished
        rw [expandAll_of_finished finished] at endsOther
        exact Option.some.inj (ends.symm.trans endsOther)
      · rename_i unfinished
        cases others with
        | zero =>
            rw [expandAll, if_neg unfinished] at endsOther
            contradiction
        | succ others =>
            rw [expandAll, if_neg unfinished] at endsOther
            cases expands : expandNextPath environment result with
            | error error =>
                rw [expands] at ends endsOther
                exact Option.some.inj (ends.symm.trans endsOther)
            | ok next =>
                rw [expands] at ends endsOther
                exact inductionHypothesis ends endsOther

/-! ## Pages -/

/-- The page of a flat listing that a token asks for. -/
def flatPage (environment : Environment) (bucket keyPrefix token : Text) : S3ListObjectsV2Result :=
  environment.service ⟨bucket, keyPrefix, token, .flat⟩

/-- The pages from a token on list the given keys. -/
inductive FlatPages (environment : Environment) (bucket keyPrefix : Text) :
    (token : Text) → (keys : List Text) → Prop
  | last {token : Text}
      (noPrefixes : (flatPage environment bucket keyPrefix token).commonPrefixes = [])
      (noMore : (flatPage environment bucket keyPrefix token).continuationToken = []) :
      FlatPages environment bucket keyPrefix token
        ((flatPage environment bucket keyPrefix token).objects.map environment.decode)
  | more {token : Text} {keys : List Text}
      (noPrefixes : (flatPage environment bucket keyPrefix token).commonPrefixes = [])
      (continues : (flatPage environment bucket keyPrefix token).continuationToken ≠ [])
      (rest : FlatPages environment bucket keyPrefix
        (flatPage environment bucket keyPrefix token).continuationToken keys) :
      FlatPages environment bucket keyPrefix token
        ((flatPage environment bucket keyPrefix token).objects.map environment.decode ++ keys)

/-- A flat listing of a bucket has every key that starts with the requested
prefix once, in some order and on some number of pages. -/
def ListsFlat (environment : Environment) (bucket : Text) (content : List Text) : Prop :=
  ∀ keyPrefix, ∃ keys, FlatPages environment bucket keyPrefix [] keys ∧
    keys.Perm (content.filter fun key => keyPrefix.isPrefixOf key)

/-- The URLs a walk reports of the keys that are listed to it. -/
def reportedUrls (glob : Text → Text → Bool) (parsedS3Url : ParsedS3Url) (keys : List Text) :
    List Text :=
  ((keys.filter fun key => key.getLast? ≠ some '/').filter (accepts glob parsedS3Url)).map
    (resultFullUrl parsedS3Url)

theorem reportedUrls_append (glob : Text → Text → Bool) (parsedS3Url : ParsedS3Url)
    (front back : List Text) :
    reportedUrls glob parsedS3Url (front ++ back) =
      reportedUrls glob parsedS3Url front ++ reportedUrls glob parsedS3Url back := by
  simp [reportedUrls]

theorem reportedUrls_perm {glob : Text → Text → Bool} {parsedS3Url : ParsedS3Url}
    {keys others : List Text} (permuted : keys.Perm others) :
    (reportedUrls glob parsedS3Url keys).Perm (reportedUrls glob parsedS3Url others) :=
  ((permuted.filter _).filter _).map _

/-! ## The walk -/

/-- A walk that has no directory to list and will not look for any. -/
structure IsFlat (environment : Environment) (result : S3GlobResult) (listed : ParsedS3Url) :
    Prop where
  unfinished : result.finished = false
  current : result.currentCommonPrefix = []
  stack : result.commonPrefixes = []
  flat : result.globType ≠ .hierarchical
  keeps : shouldInvestigateRecursiveGlob environment result = false
  parses : parse result.sharedPath result.authParams = .ok listed

/-- A flat walk after its next page. -/
def afterFlatPage (environment : Environment) (result : S3GlobResult)
    (page : S3ListObjectsV2Result) : S3GlobResult :=
  { result with
    finished := page.continuationToken.isEmpty
    mainContinuationToken := page.continuationToken
    currentCommonPrefix := []
    commonPrefixes := []
    expandedFiles := result.expandedFiles ++
      reportedUrls environment.glob result.parsedS3Url (page.objects.map environment.decode) }

theorem expandNextPath_flat {result : S3GlobResult} {listed : ParsedS3Url}
    (isFlat : IsFlat environment result listed)
    (noPrefixes : (flatPage environment listed.bucket listed.key
      result.mainContinuationToken).commonPrefixes = []) :
    expandNextPath environment result =
      .ok (afterFlatPage environment result
        (flatPage environment listed.bucket listed.key result.mainContinuationToken)) := by
  rcases isFlat with ⟨unfinished, current, stack, flat, keeps, parses⟩
  have requests : listRequest environment result.authParams result.sharedPath
      result.mainContinuationToken .flat =
        .ok (flatPage environment listed.bucket listed.key result.mainContinuationToken) := by
    rw [listRequest, parses]
    rfl
  generalize flatPage environment listed.bucket listed.key result.mainContinuationToken = page
    at noPrefixes requests
  have scans : scanTopLevel environment result =
      .ok (selectNextCommonPrefix { result with
        mainContinuationToken := page.continuationToken
        commonPrefixes := page.commonPrefixes }, listedFiles environment page) := by
    rw [scanTopLevel, if_neg (by simp [stack]), if_neg flat]
    dsimp only
    rw [requests]
    apply bind_eq_ok_iff.mpr
    refine ⟨page, rfl, ?_⟩
    rw [keeps, Bool.false_and, if_neg Bool.false_ne_true]
    rfl
  rw [expandNextPath, if_neg (by simp [unfinished]), if_neg (by simp [current]), scans, noPrefixes]
  change Except.ok _ = Except.ok _
  simp only [selectNextCommonPrefix, List.getLast?_nil, unfinished, List.isEmpty_nil,
    Bool.and_true, Bool.false_or]
  rfl

theorem IsFlat.afterFlatPage {result : S3GlobResult} {listed : ParsedS3Url}
    (isFlat : IsFlat environment result listed) {page : S3ListObjectsV2Result}
    (continues : page.continuationToken ≠ []) :
    IsFlat environment (afterFlatPage environment result page) listed where
  unfinished := by
    rw [Glob.afterFlatPage]
    simpa using continues
  current := rfl
  stack := rfl
  flat := isFlat.flat
  keeps := isFlat.keeps
  parses := isFlat.parses

/-- A flat walk ends with the URLs of the keys on its pages. -/
theorem expandAll_flat {result : S3GlobResult} {listed : ParsedS3Url} {token : Text}
    {keys : List Text} (pages : FlatPages environment listed.bucket listed.key token keys)
    (isFlat : IsFlat environment result listed) (atToken : result.mainContinuationToken = token) :
    ∃ calls last, expandAll environment calls result = some (.ok last) ∧
      last.expandedFiles = result.expandedFiles ++
        reportedUrls environment.glob result.parsedS3Url keys := by
  induction pages generalizing result with
  | last noPrefixes noMore =>
      subst atToken
      have finishes : (Glob.afterFlatPage environment result (flatPage environment listed.bucket
          listed.key result.mainContinuationToken)).finished = true := by
        rw [Glob.afterFlatPage, noMore]
        rfl
      refine ⟨1, Glob.afterFlatPage environment result (flatPage environment listed.bucket
        listed.key result.mainContinuationToken), ?_, rfl⟩
      rw [expandAll, if_neg (by simp [isFlat.unfinished]), expandNextPath_flat isFlat noPrefixes]
      exact expandAll_of_finished finishes 0
  | @more token keys noPrefixes continues rest inductionHypothesis =>
      subst atToken
      rcases inductionHypothesis (isFlat.afterFlatPage continues) rfl with
        ⟨calls, last, expands, files⟩
      refine ⟨calls + 1, last, ?_, ?_⟩
      · rw [expandAll, if_neg (by simp [isFlat.unfinished]),
          expandNextPath_flat isFlat noPrefixes]
        exact expands
      · rw [files, reportedUrls_append, ← List.append_assoc]
        rfl

end Httpfs.S3.Glob
