import Httpfs.S3.Glob.Following

/-!
# The first call of a walk

The first call reads the first page of the top level.  A walk that may list by directory
reads it flat and looks whether many keys are in few directories; then it reads the page
again by directory, and that page is the first one of its tour.
-/

namespace Httpfs.S3.Glob

open Text S3GlobMatchMode Transition

variable {environment : Environment} {start : S3GlobResult} {bucket literal : Text}
variable {mode : S3ListMode} {requestsOf : Text → List S3ListQuery} {content : List Text}

/-! ## Where a walk lists -/

/-- A walk that was opened on the parts of a URL lists in the bucket of that URL. -/
theorem Opened.located {globPattern : Text} {authParams : S3AuthParams} {walk : S3GlobResult}
    {scheme tail : Text}
    (opened : Opened environment globPattern authParams walk scheme bucket tail)
    (noQuestion : '?' ∉ walk.sharedPath) (globType : GlobType) :
    Located { walk with globType } walk.parsedS3Url.bucket (literalPart walk.parsedS3Url.key) := by
  have isBucket : walk.parsedS3Url.bucket = bucket := by
    rw [opened.parsed_eq]
    rfl
  have isPrefix : walk.parsedS3Url.urlPrefix = lower scheme ++ "://".toList := by
    rw [opened.parsed_eq]
    rfl
  rw [opened.shared_eq, List.mem_append, not_or] at noQuestion
  have free : '?' ∉ literalPart walk.parsedS3Url.key := fun member =>
    noQuestion.2 (List.mem_cons_of_mem '/' member)
  have parses := fun (scheme : Text) (plain : PlainScheme scheme) (rest : Text) =>
    parse_append plain opened.noSlash opened.noQuestion opened.nonempty opened.mode rest
  constructor
  · have shared := parses scheme opened.plain (literalPart walk.parsedS3Url.key)
    rw [← opened.shared_eq] at shared
    refine ⟨_, shared, isBucket.symm, ?_⟩
    change (splitRest (literalPart walk.parsedS3Url.key)).2.2 = _
    rw [splitRest_of_not_mem free]
  · intro name
    have reads := parses (lower scheme) opened.plain.lower name
    have url : lower scheme ++ "://".toList ++ bucket ++ '/' :: name =
        walk.parsedS3Url.urlPrefix ++ walk.parsedS3Url.bucket ++ "/".toList ++ name := by
      rw [isPrefix, isBucket]
      simp
    rw [url] at reads
    exact ⟨_, reads, isBucket.symm, rfl⟩
  · exact free

/-- The path of the first list requests ends before a query string. -/
theorem sharedPath_noQuestion {globPattern : Text} {authParams : S3AuthParams}
    {walk : S3GlobResult} (mode : authParams.s3UrlCompatibilityMode = false)
    (opens : openGlob environment globPattern authParams = .ok walk)
    (unfinished : walk.finished = false) : '?' ∉ walk.sharedPath := by
  obtain ⟨resolves, -, walkEq⟩ := openGlob_eq_ok mode opens unfinished
  obtain ⟨first, read, -, reads, finalizes, parses⟩ := resolve_eq_ok_iff.mp resolves
  have resolvedMode : walk.authParams.s3UrlCompatibilityMode = false := by
    rw [finalizeAuthParams_compatibility finalizes, readQueryParams_compatibility reads, mode]
  rw [walkEq]
  dsimp only
  rw [parse_trimmedS3Url resolvedMode parses]
  intro member
  have kept := List.mem_takeWhile_imp ((List.takeWhile_sublist _).subset member)
  exact of_decide_eq_true kept rfl

/-! ## The listing of the top level -/

/-- A walk that has made no call. -/
structure Fresh (start : S3GlobResult) : Prop where
  unfinished : start.finished = false
  main : start.mainContinuationToken = []
  current : start.currentCommonPrefix = []
  token : start.commonPrefixContinuationToken = []
  stack : start.commonPrefixes = []
  files : start.expandedFiles = []

/-- A service that lists a bucket flat and by directory. -/
structure ListsBucket (environment : Environment) (bucket : Text) (content : List Text) : Prop where
  distinct : content.Nodup
  flat : ListsFlat environment bucket content
  byDirectory : ListsByDirectory environment bucket content

/-- Decoding keeps the names of the directories below which a pattern may match. -/
def KeepsNames (environment : Environment) (parsedS3Url : ParsedS3Url) (content : List Text)
    (bucket literal : Text) : Prop :=
  ∀ directory, IsDirectory content literal directory →
    mayMatch environment.glob parsedS3Url directory = true →
      KeepsName environment parsedS3Url bucket directory

/-- Whether a walk goes through the bucket by directory. -/
def listsByDirectory (environment : Environment) (start : S3GlobResult) : Bool :=
  start.globType = .hierarchical || switches environment start

/-- The requests for the top level of a walk. -/
structure TopLevel (environment : Environment) (bucket literal : Text) (content : List Text)
    (requestsOf : Text → List S3ListQuery) (mode : S3ListMode) (queries : List S3ListQuery) :
    Prop where
  listing : Listing environment bucket literal mode [] queries
  byDirectory : mode = .hierarchical → queries = requestsOf literal
  flat : mode = .flat → (∀ query ∈ queries, (environment.service query).commonPrefixes = []) ∧
    (queries.flatMap (listedKeys environment)).Perm (keysBelow content literal)

theorem Serves.topLevel (serves : Serves environment bucket content requestsOf) (literal : Text) :
    TopLevel environment bucket literal content requestsOf .hierarchical (requestsOf literal) where
  listing := serves.listing literal
  byDirectory := fun _ => rfl
  flat := by
    intro impossible
    contradiction

theorem ListsFlat.exists_topLevel (lists : ListsFlat environment bucket content)
    (requestsOf : Text → List S3ListQuery) (literal : Text) :
    ∃ queries, TopLevel environment bucket literal content requestsOf .flat queries := by
  obtain ⟨keys, pages, permuted⟩ := lists literal
  obtain ⟨queries, listing, rfl, noPrefixes⟩ := pages.exists_listing
  refine ⟨queries, listing, ?_, fun _ => ⟨noPrefixes, permuted⟩⟩
  intro impossible
  contradiction

theorem TopLevel.named (serves : Serves environment bucket content requestsOf)
    {queries : List S3ListQuery}
    (topLevel : TopLevel environment bucket literal content requestsOf mode queries) :
    ∀ query ∈ queries, ∀ name ∈ (environment.service query).commonPrefixes, name ≠ [] := by
  cases mode with
  | flat =>
      intro query member name isName
      rw [(topLevel.flat rfl).1 query member] at isName
      contradiction
  | hierarchical =>
      rw [topLevel.byDirectory rfl]
      exact serves.named literal

/-- The pages of the top level have what is owed for the keys below it. -/
theorem TopLevel.owes (serves : Serves environment bucket content requestsOf)
    (distinct : content.Nodup) {queries : List S3ListQuery} {parsedS3Url : ParsedS3Url}
    (topLevel : TopLevel environment bucket literal content requestsOf mode queries) :
    (PagedWalk.owes (owedUrls environment.glob parsedS3Url content)
        ⟨queries.map (servedPage environment parsedS3Url), none, []⟩).Perm
      (owedUrls environment.glob parsedS3Url content literal) := by
  rw [PagedWalk.owes, List.flatMap_nil, List.nil_append]
  cases mode with
  | hierarchical =>
      rw [topLevel.byDirectory rfl]
      exact (serves.pages_owe distinct literal).symm
  | flat =>
      obtain ⟨noPrefixes, permuted⟩ := topLevel.flat rfl
      have items : ∀ query ∈ queries,
          PagedWalk.pageOwes (owedUrls environment.glob parsedS3Url content)
            (servedPage environment parsedS3Url query) =
          reportedUrls environment.glob parsedS3Url (listedKeys environment query) := by
        intro query member
        rw [PagedWalk.pageOwes, servedPage, listedDirectories, noPrefixes query member]
        exact List.append_nil _
      change ((queries.map (servedPage environment parsedS3Url)).flatMap
        (PagedWalk.pageOwes (owedUrls environment.glob parsedS3Url content))).Perm _
      rw [List.flatMap_map, List.flatMap_congr items, ← reportedUrls_flatMap, owedUrls]
      exact reportedUrls_perm permuted

/-! ## The first call -/

/-- A walk follows its tour from the page that the first call takes over. -/
theorem follows_of_scan (serves : Serves environment bucket content requestsOf)
    (fresh : Fresh start) {globType : GlobType} {query : S3ListQuery} {rest : List S3ListQuery}
    (scans : scanTopLevel environment start =
      .ok (selectNextCommonPrefix
          (tookOuterPage { start with globType } (environment.service query)),
        listedFiles environment (environment.service query)))
    (topLevel : TopLevel environment bucket literal content requestsOf mode (query :: rest))
    (hierarchical : globType = .hierarchical ↔ mode = .hierarchical)
    (decided : rest = [] ∨
      shouldInvestigateRecursiveGlob environment { start with globType } = false) :
    ∃ next, expandNextPath environment start = .ok next ∧
      next.expandedFiles = (servedPage environment start.parsedS3Url query).items ∧
      Follows environment start bucket literal mode requestsOf next
        (PagedWalk.select (visit environment start.parsedS3Url requestsOf)
          (rest.map (servedPage environment start.parsedS3Url))
          (servedPage environment start.parsedS3Url query).nodes) := by
  have target : SameTarget start
      (tookOuterPage { start with globType } (environment.service query)) := ⟨rfl, rfl, rfl⟩
  have named := topLevel.named serves
  refine ⟨_, expandNextPath_of_scanTopLevel fresh.unfinished fresh.current scans, ?_, ?_⟩
  · rw [finishCall_files target.select, selectNextCommonPrefix_files]
    change start.expandedFiles ++ _ = _
    rw [fresh.files, List.nil_append]
  · apply @ListsOuter.select _ _ _ _ mode _ _ serves
      (tookOuterPage { start with globType } (environment.service query)) _ _ fresh.unfinished _
      fresh.token
    · refine ⟨target, hierarchical, ?_, ?_, ?_, named query List.mem_cons_self⟩
      · rcases decided with rfl | decided
        · exact .inl rfl
        · exact .inr decided
      · cases topLevel.listing with
        | last => exact .inl rfl
        | more continues listing => exact .inr ⟨rest, listing, rfl⟩
      · intro page member
        obtain ⟨other, isOther, rfl⟩ := List.mem_map.mp member
        exact named other (List.mem_cons_of_mem query isOther)
    · change (environment.service query).continuationToken = [] ↔ _
      rw [List.map_eq_nil_iff]
      cases topLevel.listing with
      | last noMore => exact iff_of_true noMore rfl
      | more continues listing => exact iff_of_false continues listing.ne_nil

theorem Listing.exists_cons {keyPrefix token : Text} {queries : List S3ListQuery}
    (listing : Listing environment bucket keyPrefix mode token queries) :
    ∃ rest, queries = ⟨bucket, keyPrefix, token, mode⟩ :: rest := by
  cases listing with
  | last => exact ⟨[], rfl⟩
  | more continues listing => exact ⟨_, rfl⟩

theorem Located.request (located : Located start bucket literal) (token : Text)
    (mode : S3ListMode) :
    listRequest environment start.authParams start.sharedPath token mode =
        .ok (environment.service ⟨bucket, literal, token, mode⟩) ∧
      queryFor start.authParams start.sharedPath token mode = [⟨bucket, literal, token, mode⟩] := by
  obtain ⟨listed, parses, rfl, rfl⟩ := located.shared
  constructor
  · rw [listRequest, parses]
    rfl
  · rw [queryFor, parses]

/-- The first call of a walk: it takes over the first page of the top level, and has asked
for a flat page before where it changes over. -/
structure FirstCall (environment : Environment) (start : S3GlobResult) (bucket literal : Text)
    (content : List Text) (requestsOf : Text → List S3ListQuery) (mode : S3ListMode)
    (query : S3ListQuery) (rest wasted : List S3ListQuery) (next : S3GlobResult) : Prop where
  topLevel : TopLevel environment bucket literal content requestsOf mode (query :: rest)
  byDirectory : mode = .hierarchical ↔ listsByDirectory environment start = true
  expands : expandNextPath environment start = .ok next
  reports : next.expandedFiles = (servedPage environment start.parsedS3Url query).items
  sends : sentQueries environment start = wasted ++ [query]
  wastes : wasted = [] ∨ mode = .hierarchical ∧ ∃ flat : S3ListQuery, wasted = [flat] ∧
    flat.mode = .flat
  follows : Follows environment start bucket literal mode requestsOf next
    (PagedWalk.select (visit environment start.parsedS3Url requestsOf)
      (rest.map (servedPage environment start.parsedS3Url))
      (servedPage environment start.parsedS3Url query).nodes)

theorem sentQueries_of_fresh (fresh : Fresh start) (located : Located start bucket literal)
    (hierarchical : start.globType = .hierarchical ↔ mode = .hierarchical) :
    sentQueries environment start = ⟨bucket, literal, [], mode⟩ ::
      if switches environment start then [⟨bucket, literal, [], .hierarchical⟩] else [] := by
  rw [sentQueries, if_neg (by simp [fresh.unfinished]), if_neg (by simp [fresh.current]),
    if_neg (by simp [fresh.stack]), modeOf hierarchical, fresh.main,
    (@Located.request environment _ _ _ located [] mode).2,
    (@Located.request environment _ _ _ located [] .hierarchical).2]
  rfl

/-- A walk that does not investigate takes over the first page in its own mode. -/
theorem exists_firstCall_of_decided (located : Located start bucket literal) (fresh : Fresh start)
    (serves : Serves environment bucket content requestsOf)
    (lists : ListsFlat environment bucket content)
    (decided : shouldInvestigateRecursiveGlob environment start = false) :
    ∃ mode query rest wasted next, FirstCall environment start bucket literal content requestsOf
      mode query rest wasted next := by
  have keepsTo : switches environment start = false := by
    rw [switches, decided, Bool.false_and]
  obtain ⟨mode, hierarchical⟩ : ∃ mode, start.globType = .hierarchical ↔
      mode = S3ListMode.hierarchical := by
    by_cases isHierarchical : start.globType = .hierarchical
    · exact ⟨.hierarchical, iff_of_true isHierarchical rfl⟩
    · refine ⟨.flat, iff_of_false isHierarchical ?_⟩
      intro impossible
      contradiction
  obtain ⟨queries, topLevel⟩ : ∃ queries,
      TopLevel environment bucket literal content requestsOf mode queries := by
    cases mode with
    | flat => exact lists.exists_topLevel requestsOf literal
    | hierarchical => exact ⟨_, serves.topLevel literal⟩
  obtain ⟨rest, rfl⟩ := topLevel.listing.exists_cons
  have scans := scanTopLevel_of_decided located SameTarget.rfl hierarchical decided fresh.stack rfl
  rw [fresh.main] at scans
  obtain ⟨next, expands, reports, follows⟩ := @follows_of_scan environment start bucket literal
    mode requestsOf content serves fresh start.globType _ rest scans topLevel hierarchical
    (.inr decided)
  refine ⟨mode, _, rest, [], next, topLevel, ?_, expands, reports, ?_, .inl rfl, follows⟩
  · rw [listsByDirectory, keepsTo, Bool.or_false, decide_eq_true_iff, hierarchical]
  · rw [sentQueries_of_fresh fresh located hierarchical, keepsTo]
    rfl

/-- What an investigating call takes over of the first page. -/
theorem scanTopLevel_of_investigating (located : Located start bucket literal)
    (fresh : Fresh start)
    (investigates : shouldInvestigateRecursiveGlob environment start = true)
    {response : S3ListObjectsV2Result}
    (answers : environment.service ⟨bucket, literal, [], .flat⟩ = response) :
    switches environment start =
        (!response.continuationToken.isEmpty &&
          containsDenseDirectories (listedFiles environment response)) ∧
      scanTopLevel environment start =
        if response.continuationToken.isEmpty then
          .ok (selectNextCommonPrefix (tookOuterPage start response),
            listedFiles environment response)
        else if containsDenseDirectories (listedFiles environment response) then
          let chosen := environment.service ⟨bucket, literal, [], .hierarchical⟩
          .ok (selectNextCommonPrefix (tookOuterPage { start with globType := .hierarchical }
            chosen), listedFiles environment chosen)
        else
          .ok (selectNextCommonPrefix (tookOuterPage { start with globType := .listing }
            response), listedFiles environment response) := by
  obtain ⟨flatRequest, flatQuery⟩ := @Located.request environment _ _ _ located [] .flat
  have againRequest := (@Located.request environment _ _ _ located [] .hierarchical).1
  rw [answers] at flatRequest
  constructor
  · rw [switches, investigates, Bool.true_and, fresh.main, flatQuery, List.any_cons, List.any_nil,
      Bool.or_false, answers]
  · rw [scanTopLevel, if_neg (by simp [fresh.stack]),
      if_neg (not_hierarchical_of_shouldInvestigate investigates)]
    dsimp only
    rw [fresh.main, flatRequest, investigates]
    cases noMore : response.continuationToken.isEmpty with
    | true =>
        rw [if_pos rfl]
        refine bind_eq_ok_iff.mpr ⟨response, rfl, ?_⟩
        rw [noMore]
        rfl
    | false =>
        rw [if_neg Bool.false_ne_true]
        cases dense : containsDenseDirectories (listedFiles environment response) with
        | false =>
            rw [if_neg Bool.false_ne_true]
            refine bind_eq_ok_iff.mpr ⟨response, rfl, ?_⟩
            rw [noMore, selectGlobType, dense]
            rfl
        | true =>
            rw [if_pos rfl]
            refine bind_eq_ok_iff.mpr ⟨response, rfl, ?_⟩
            rw [noMore, selectGlobType, dense, fresh.main, againRequest]
            rfl

/-- A walk that investigates takes over the first page flat, or by directory where many keys
are in few directories. -/
theorem exists_firstCall_of_investigating (located : Located start bucket literal)
    (fresh : Fresh start) (serves : Serves environment bucket content requestsOf)
    (lists : ListsFlat environment bucket content)
    (investigates : shouldInvestigateRecursiveGlob environment start = true) :
    ∃ mode query rest wasted next, FirstCall environment start bucket literal content requestsOf
      mode query rest wasted next := by
  have notHierarchical := not_hierarchical_of_shouldInvestigate investigates
  have isFlat : start.globType = .hierarchical ↔ S3ListMode.flat = .hierarchical := by
    apply iff_of_false notHierarchical
    intro impossible
    contradiction
  obtain ⟨queries, topLevel⟩ := lists.exists_topLevel requestsOf literal
  obtain ⟨rest, rfl⟩ := topLevel.listing.exists_cons
  obtain ⟨changes, scans⟩ := scanTopLevel_of_investigating located fresh investigates rfl
  have asks := @sentQueries_of_fresh environment _ _ _ _ fresh located isFlat
  have goesOn (globType : GlobType) (isListing : globType = .hierarchical → False)
      (scans : scanTopLevel environment start =
        .ok (selectNextCommonPrefix (tookOuterPage { start with globType }
            (environment.service ⟨bucket, literal, [], .flat⟩)),
          listedFiles environment (environment.service ⟨bucket, literal, [], .flat⟩)))
      (stays : switches environment start = false)
      (decided : rest = [] ∨
        shouldInvestigateRecursiveGlob environment { start with globType } = false) :
      ∃ mode query rest wasted next, FirstCall environment start bucket literal content
        requestsOf mode query rest wasted next := by
    have keepsTo : globType = .hierarchical ↔ S3ListMode.flat = .hierarchical := by
      apply iff_of_false isListing
      intro impossible
      contradiction
    obtain ⟨next, expands, reports, follows⟩ :=
      follows_of_scan serves fresh scans topLevel keepsTo decided
    refine ⟨.flat, _, rest, [], next, topLevel, ?_, expands, reports, ?_, .inl rfl, follows⟩
    · rw [listsByDirectory, stays, Bool.or_false, decide_eq_true_iff, isFlat]
    · rw [asks, stays]
      rfl
  cases noMore : (environment.service ⟨bucket, literal, [], .flat⟩).continuationToken.isEmpty with
  | true =>
      rw [noMore, if_pos rfl] at scans
      rw [noMore] at changes
      apply goesOn start.globType notHierarchical scans changes
      left
      cases topLevel.listing with
      | last => rfl
      | more continues => exact absurd (List.isEmpty_iff.mp noMore) continues
  | false =>
      rw [noMore, if_neg Bool.false_ne_true] at scans
      rw [noMore] at changes
      cases dense : containsDenseDirectories
          (listedFiles environment (environment.service ⟨bucket, literal, [], .flat⟩)) with
      | false =>
          rw [dense, if_neg Bool.false_ne_true] at scans
          rw [dense] at changes
          apply goesOn .listing _ scans changes (.inr rfl)
          intro impossible
          contradiction
      | true =>
          rw [dense, if_pos rfl] at scans
          rw [dense] at changes
          have again := serves.topLevel literal
          obtain ⟨directoryRest, isRequests⟩ := again.listing.exists_cons
          rw [isRequests] at again
          obtain ⟨next, expands, reports, follows⟩ :=
            follows_of_scan serves fresh scans again (iff_of_true rfl rfl) (.inr rfl)
          refine ⟨.hierarchical, _, directoryRest, [⟨bucket, literal, [], .flat⟩], next, again, ?_,
            expands, reports, ?_, .inr ⟨rfl, _, rfl, rfl⟩, follows⟩
          · rw [listsByDirectory, changes]
            exact iff_of_true rfl (Bool.or_true _)
          · rw [asks, changes]
            rfl

theorem exists_firstCall (located : Located start bucket literal) (fresh : Fresh start)
    (serves : Serves environment bucket content requestsOf)
    (lists : ListsFlat environment bucket content) :
    ∃ mode query rest wasted next, FirstCall environment start bucket literal content requestsOf
      mode query rest wasted next := by
  cases investigates : shouldInvestigateRecursiveGlob environment start with
  | true => exact exists_firstCall_of_investigating located fresh serves lists investigates
  | false => exact exists_firstCall_of_decided located fresh serves lists investigates

end Httpfs.S3.Glob
