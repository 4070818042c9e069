import Httpfs.S3.Glob.Requests

/-!
# Walks that follow a tour

The calls of a walk read the pages of a tour of the bucket one after the other.  The
directory that is listed is decoded again at every page, so the walk follows the tour as
long as that leaves the name of a directory with several pages as it is.
-/

namespace Httpfs.S3.Glob

open Text S3GlobMatchMode Transition

variable {environment : Environment}

/-! ## Following a tour -/

variable {base : S3GlobResult} {bucket literal : Text} {mode : S3ListMode}
variable {requestsOf : Text → List S3ListQuery} {content : List Text}

/-- The URLs of a walk are read as places in one bucket. -/
structure Located (base : S3GlobResult) (bucket literal : Text) : Prop where
  shared : ∃ listed, parse base.sharedPath base.authParams = .ok listed ∧
    listed.bucket = bucket ∧ listed.key = literal
  directory : ∀ name, ∃ parsedUrl, parse (base.parsedS3Url.urlPrefix ++
      base.parsedS3Url.bucket ++ "/".toList ++ name) base.authParams = .ok parsedUrl ∧
    parsedUrl.bucket = bucket ∧ parsedUrl.key = askedPrefix name
  noQuestion : '?' ∉ literal

/-- Decoding keeps what stands before the name of a directory, and the name itself where
there is a page after the first one. -/
structure KeepsName (environment : Environment) (parsedS3Url : ParsedS3Url)
    (bucket directory : Text) : Prop where
  front : ∀ name, environment.decode name = directory →
    environment.decode (parsedS3Url.urlPrefix ++ parsedS3Url.bucket ++ "/".toList ++ name) =
      parsedS3Url.urlPrefix ++ parsedS3Url.bucket ++ "/".toList ++ directory
  again : (environment.service
      ⟨bucket, askedPrefix directory, [], .hierarchical⟩).continuationToken = [] ∨
    environment.decode directory = directory

/-- What a walk lists of the current directory. -/
inductive ListsCurrent (environment : Environment) (parsedS3Url : ParsedS3Url) (bucket : Text)
    (requestsOf : Text → List S3ListQuery) :
    (name token : Text) → Option (Text × List (Page S3ListQuery Text Text)) → Prop
  | idle : ListsCurrent environment parsedS3Url bucket requestsOf [] [] none
  | passes {name : Text} (named : name ≠ [])
      (skips : mayMatch environment.glob parsedS3Url (environment.decode name) = false) :
      ListsCurrent environment parsedS3Url bucket requestsOf name []
        (some (environment.decode name, []))
  | lists {name token : Text} {queries : List S3ListQuery} (named : name ≠ [])
      (matching : mayMatch environment.glob parsedS3Url (environment.decode name) = true)
      (listing : Listing environment bucket (askedPrefix (environment.decode name))
        .hierarchical token queries)
      (part : queries <:+ requestsOf (askedPrefix (environment.decode name))) :
      ListsCurrent environment parsedS3Url bucket requestsOf name token
        (some (environment.decode name, queries.map (servedPage environment parsedS3Url)))

/-- What a walk lists of the top level. -/
structure ListsOuter (environment : Environment) (base : S3GlobResult) (bucket literal : Text)
    (mode : S3ListMode) (result : S3GlobResult)
    (outer : List (Page S3ListQuery Text Text)) : Prop where
  target : SameTarget base result
  hierarchical : result.globType = .hierarchical ↔ mode = .hierarchical
  decided : outer = [] ∨ shouldInvestigateRecursiveGlob environment result = false
  listing : outer = [] ∨ ∃ queries,
    Listing environment bucket literal mode result.mainContinuationToken queries ∧
      outer = queries.map (servedPage environment base.parsedS3Url)
  outerNamed : ∀ page ∈ outer, ∀ name ∈ (environment.service page.request).commonPrefixes,
    name ≠ []
  named : ∀ name ∈ result.commonPrefixes, name ≠ []

/-- A walk has left what a tour of the bucket has left. -/
structure Follows (environment : Environment) (base : S3GlobResult) (bucket literal : Text)
    (mode : S3ListMode) (requestsOf : Text → List S3ListQuery) (result : S3GlobResult)
    (walk : PagedWalk S3ListQuery Text Text) : Prop
    extends ListsOuter environment base bucket literal mode result walk.outer where
  finished : result.finished = (walk.outer.isEmpty && walk.current.isNone)
  begun : walk.current.isSome = true → (result.mainContinuationToken = [] ↔ walk.outer = [])
  stack : result.commonPrefixes.map environment.decode = walk.stack
  bottom : walk.current = none → walk.stack = []
  current : ListsCurrent environment base.parsedS3Url bucket requestsOf
    result.currentCommonPrefix result.commonPrefixContinuationToken walk.current

/-! ## Ending a call -/

/-- The end of a call of `ExpandNextPath`, after its scan. -/
def finishCall (environment : Environment) (scanned : S3GlobResult) (s3Keys : List Text) :
    S3GlobResult :=
  appendMatchingFiles environment
    { scanned with
      finished := scanned.finished ||
        scanned.mainContinuationToken.isEmpty && scanned.currentCommonPrefix.isEmpty } s3Keys

theorem expandNextPath_of_scanCurrent {result scanned : S3GlobResult} {s3Keys : List Text}
    (unfinished : result.finished = false) (inDirectory : result.currentCommonPrefix ≠ [])
    (scans : scanCurrentCommonPrefix environment result = .ok (scanned, s3Keys)) :
    expandNextPath environment result = .ok (finishCall environment scanned s3Keys) := by
  have nonempty : (!result.currentCommonPrefix.isEmpty) = true := by simpa using inDirectory
  rw [expandNextPath, if_neg (by simp [unfinished]), if_pos nonempty, scans]
  rfl

theorem expandNextPath_of_scanTopLevel {result scanned : S3GlobResult} {s3Keys : List Text}
    (unfinished : result.finished = false) (atTop : result.currentCommonPrefix = [])
    (scans : scanTopLevel environment result = .ok (scanned, s3Keys)) :
    expandNextPath environment result = .ok (finishCall environment scanned s3Keys) := by
  rw [expandNextPath, if_neg (by simp [unfinished]), if_neg (by simp [atTop]), scans]
  rfl

theorem selectNextCommonPrefix_nil {result : S3GlobResult} (empty : result.commonPrefixes = []) :
    selectNextCommonPrefix result = { result with currentCommonPrefix := [] } := by
  rw [selectNextCommonPrefix, empty]
  rfl

theorem selectNextCommonPrefix_concat {result : S3GlobResult} {front : List Text} {name : Text}
    (names : result.commonPrefixes = front ++ [name]) :
    selectNextCommonPrefix result =
      { result with currentCommonPrefix := name, commonPrefixes := front } := by
  rw [selectNextCommonPrefix, names, List.getLast?_concat]
  simp only [List.dropLast_concat]

theorem ListsOuter.congr {result other : S3GlobResult}
    {outer : List (Page S3ListQuery Text Text)}
    (lists : ListsOuter environment base bucket literal mode result outer)
    (target : SameTarget result other) (globType : other.globType = result.globType)
    (token : other.mainContinuationToken = result.mainContinuationToken)
    (names : ∀ name ∈ other.commonPrefixes, name ≠ []) :
    ListsOuter environment base bucket literal mode other outer where
  target := lists.target.trans target
  hierarchical := globType ▸ lists.hierarchical
  decided := by
    refine lists.decided.imp_right fun decided => ?_
    rw [shouldInvestigateRecursiveGlob] at decided ⊢
    rw [globType, target.parsed]
    exact decided
  listing := token ▸ lists.listing
  outerNamed := lists.outerNamed
  named := names

/-- A walk that has read a listing to its end goes on with the last directory it found. -/
theorem ListsOuter.select (serves : Serves environment bucket content requestsOf)
    {scanned : S3GlobResult} {outer : List (Page S3ListQuery Text Text)}
    (lists : ListsOuter environment base bucket literal mode scanned outer)
    (unfinished : scanned.finished = false)
    (begun : scanned.mainContinuationToken = [] ↔ outer = [])
    (idle : scanned.commonPrefixContinuationToken = []) (s3Keys : List Text) :
    Follows environment base bucket literal mode requestsOf
      (finishCall environment (selectNextCommonPrefix scanned) s3Keys)
      (PagedWalk.select (visit environment base.parsedS3Url requestsOf) outer
        (scanned.commonPrefixes.map environment.decode)) := by
  rcases List.eq_nil_or_concat' scanned.commonPrefixes with empty | ⟨front, name, names⟩
  · rw [empty, selectNextCommonPrefix_nil empty, List.map_nil, PagedWalk.select_nil]
    refine ⟨lists.congr ⟨rfl, rfl, rfl⟩ rfl rfl lists.named, ?_, nofun, ?_, fun _ => rfl, ?_⟩
    · change (scanned.finished || scanned.mainContinuationToken.isEmpty && true) =
        (outer.isEmpty && true)
      rw [unfinished, Bool.false_or, Bool.and_true, Bool.and_true, Bool.eq_iff_iff,
        List.isEmpty_iff, List.isEmpty_iff]
      exact begun
    · change scanned.commonPrefixes.map environment.decode = []
      rw [empty]
      rfl
    · change ListsCurrent _ _ _ _ [] scanned.commonPrefixContinuationToken none
      rw [idle]
      exact .idle
  · rw [names, selectNextCommonPrefix_concat names, List.map_append, List.map_singleton,
      PagedWalk.select_concat]
    have named := names ▸ lists.named
    have isNamed : name ≠ [] := named name (List.mem_append_right front (List.mem_singleton_self name))
    refine ⟨lists.congr ⟨rfl, rfl, rfl⟩ rfl rfl ?_, ?_, fun _ => begun, rfl, nofun, ?_⟩
    · exact fun other member => named other (List.mem_append_left _ member)
    · change (scanned.finished || scanned.mainContinuationToken.isEmpty && name.isEmpty) =
        (outer.isEmpty && false)
      rw [unfinished, List.isEmpty_eq_false_iff.mpr isNamed, Bool.and_false, Bool.and_false]
      rfl
    · change ListsCurrent _ _ _ _ name scanned.commonPrefixContinuationToken _
      rw [idle, visit]
      by_cases matching : mayMatch environment.glob base.parsedS3Url (environment.decode name) = true
      · rw [if_pos matching]
        exact .lists isNamed matching (serves.listing _) (List.suffix_refl _)
      · rw [if_neg matching]
        exact .passes isNamed (Bool.not_eq_true _ ▸ matching)

/-- What a call sends and reports is a page that is read, or nothing. -/
structure CallReads (environment : Environment) (result next : S3GlobResult)
    (page : Option (Page S3ListQuery Text Text)) : Prop where
  expands : expandNextPath environment result = .ok next
  sends : sentQueries environment result = page.toList.map Page.request
  reports : next.expandedFiles = result.expandedFiles ++ page.toList.flatMap Page.items

theorem modeOf {result : S3GlobResult}
    (hierarchical : result.globType = .hierarchical ↔ mode = .hierarchical) :
    (if result.globType = .hierarchical then S3ListMode.hierarchical else .flat) = mode := by
  cases mode with
  | flat =>
      rw [if_neg]
      intro isHierarchical
      have impossible := hierarchical.mp isHierarchical
      contradiction
  | hierarchical => exact if_pos (hierarchical.mpr rfl)

/-- A walk that has taken over a page of the top level. -/
def tookOuterPage (result : S3GlobResult) (response : S3ListObjectsV2Result) : S3GlobResult :=
  { result with
    mainContinuationToken := response.continuationToken
    commonPrefixes := response.commonPrefixes }

/-- What a call from the top level lists. -/
theorem scanTopLevel_of_decided (located : Located base bucket literal) {result : S3GlobResult}
    (target : SameTarget base result)
    (hierarchical : result.globType = .hierarchical ↔ mode = .hierarchical)
    (decided : shouldInvestigateRecursiveGlob environment result = false)
    (empty : result.commonPrefixes = []) {query : S3ListQuery}
    (isQuery : query = ⟨bucket, literal, result.mainContinuationToken, mode⟩) :
    scanTopLevel environment result =
      .ok (selectNextCommonPrefix (tookOuterPage result (environment.service query)),
        listedFiles environment (environment.service query)) := by
  obtain ⟨listed, parses, rfl, rfl⟩ := located.shared
  have requests : listRequest environment result.authParams result.sharedPath
      result.mainContinuationToken mode = .ok (environment.service query) := by
    rw [listRequest, target.auth, target.shared, parses, isQuery]
    rfl
  rw [scanTopLevel, if_neg (by simp [empty]), modeOf hierarchical]
  dsimp only
  rw [requests]
  apply bind_eq_ok_iff.mpr
  refine ⟨_, rfl, ?_⟩
  rw [decided, Bool.false_and, if_neg Bool.false_ne_true]
  rfl

/-- What the end of a call reports of a page. -/
theorem finishCall_files {scanned : S3GlobResult} (target : SameTarget base scanned)
    (query : S3ListQuery) :
    (finishCall environment scanned
        (listedFiles environment (environment.service query))).expandedFiles =
      scanned.expandedFiles ++ (servedPage environment base.parsedS3Url query).items := by
  rw [finishCall, appendMatchingFiles]
  dsimp only
  rw [target.parsed]
  rfl

theorem selectNextCommonPrefix_files (result : S3GlobResult) :
    (selectNextCommonPrefix result).expandedFiles = result.expandedFiles := by
  rw [selectNextCommonPrefix]
  split
  · rfl
  · rfl

theorem ListsCurrent.idle_inv {parsedS3Url : ParsedS3Url} {name token : Text}
    (lists : ListsCurrent environment parsedS3Url bucket requestsOf name token none) :
    name = [] ∧ token = [] := by
  cases lists with
  | idle => exact ⟨rfl, rfl⟩

/-- The requests for the top level, once it is decided how it is listed. -/
theorem sentQueries_of_decided (located : Located base bucket literal) {result : S3GlobResult}
    (target : SameTarget base result)
    (hierarchical : result.globType = .hierarchical ↔ mode = .hierarchical)
    (decided : shouldInvestigateRecursiveGlob environment result = false)
    (unfinished : result.finished = false) (atTop : result.currentCommonPrefix = [])
    (empty : result.commonPrefixes = []) :
    sentQueries environment result = [⟨bucket, literal, result.mainContinuationToken, mode⟩] := by
  obtain ⟨listed, parses, rfl, rfl⟩ := located.shared
  rw [sentQueries, if_neg (by simp [unfinished]), if_neg (by simp [atTop]),
    if_neg (by simp [empty]), modeOf hierarchical, queryFor, target.shared, target.auth, parses,
    switches, decided, Bool.false_and, if_neg Bool.false_ne_true]
  rfl

/-- A call from the top level reads the next page of it. -/
theorem Follows.step_outer (located : Located base bucket literal)
    (serves : Serves environment bucket content requestsOf) {result : S3GlobResult}
    {page : Page S3ListQuery Text Text} {rest : List (Page S3ListQuery Text Text)}
    (follows : Follows environment base bucket literal mode requestsOf result
      ⟨page :: rest, none, []⟩) :
    ∃ next, CallReads environment result next (some page) ∧
      Follows environment base bucket literal mode requestsOf next
        (PagedWalk.select (visit environment base.parsedS3Url requestsOf) rest page.nodes) := by
  have unfinished : result.finished = false := follows.finished
  have empty : result.commonPrefixes = [] := List.map_eq_nil_iff.mp follows.stack
  obtain ⟨atTop, idle⟩ := follows.current.idle_inv
  have decided := follows.decided.resolve_left (List.cons_ne_nil page rest)
  obtain ⟨query, isQuery, isPage, restLists⟩ : ∃ query : S3ListQuery,
      query = ⟨bucket, literal, result.mainContinuationToken, mode⟩ ∧
        page = servedPage environment base.parsedS3Url query ∧
        (((environment.service query).continuationToken = [] ∧ rest = []) ∨
          (environment.service query).continuationToken ≠ [] ∧ ∃ queries,
            Listing environment bucket literal mode
              (environment.service query).continuationToken queries ∧
            rest = queries.map (servedPage environment base.parsedS3Url)) := by
    obtain impossible | ⟨queries, listing, pages⟩ := follows.listing
    · contradiction
    · cases listing with
      | last noMore =>
          obtain ⟨isPage, isRest⟩ := List.cons.inj pages
          exact ⟨_, rfl, isPage, .inl ⟨noMore, isRest⟩⟩
      | more continues listing =>
          obtain ⟨isPage, isRest⟩ := List.cons.inj pages
          exact ⟨_, rfl, isPage, .inr ⟨continues, _, listing, isRest⟩⟩
  have scans := scanTopLevel_of_decided located follows.target follows.hierarchical decided
    empty isQuery
  have sends := sentQueries_of_decided located follows.target follows.hierarchical decided
    unfinished atTop empty
  have target : SameTarget base (tookOuterPage result (environment.service query)) :=
    follows.target.trans ⟨rfl, rfl, rfl⟩
  refine ⟨_, ⟨expandNextPath_of_scanTopLevel unfinished atTop scans, ?_, ?_⟩, ?_⟩
  · rw [sends, ← isQuery, isPage]
    rfl
  · rw [finishCall_files target.select, selectNextCommonPrefix_files, isPage]
    simp [tookOuterPage]
  · rw [isPage]
    apply @ListsOuter.select _ _ _ _ mode _ _ serves
      (tookOuterPage result (environment.service query)) rest _ unfinished _ idle
    · refine ⟨target, follows.hierarchical, ?_, ?_, ?_, ?_⟩
      · exact .inr decided
      · rcases restLists with ⟨-, isRest⟩ | ⟨-, queries, listing, isRest⟩
        · exact .inl isRest
        · exact .inr ⟨queries, listing, isRest⟩
      · exact fun other member => follows.outerNamed other (List.mem_cons_of_mem page member)
      · have named := follows.outerNamed page List.mem_cons_self
        rw [isPage] at named
        exact named
    · rcases restLists with ⟨noMore, isRest⟩ | ⟨continues, queries, listing, isRest⟩
      · exact iff_of_true noMore isRest
      · apply iff_of_false continues
        rw [isRest, List.map_eq_nil_iff]
        exact listing.ne_nil

/-! ## Calls in a directory -/

/-- A walk that has passed over the current directory. -/
def passedDirectory (environment : Environment) (result : S3GlobResult) : S3GlobResult :=
  { result with currentCommonPrefix := environment.decode result.currentCommonPrefix }

/-- A walk that has taken over a page of the current directory. -/
def tookPage (environment : Environment) (result : S3GlobResult)
    (response : S3ListObjectsV2Result) : S3GlobResult :=
  { result with
    currentCommonPrefix := environment.decode result.currentCommonPrefix
    commonPrefixes := result.commonPrefixes ++ response.commonPrefixes
    commonPrefixContinuationToken := response.continuationToken }

theorem ListsOuter.parsed {result : S3GlobResult} {outer : List (Page S3ListQuery Text Text)}
    (lists : ListsOuter environment base bucket literal mode result outer) :
    result.parsedS3Url = base.parsedS3Url :=
  lists.target.parsed

/-- What is left of a directory that the walk passes over. -/
theorem ListsCurrent.passes_inv {parsedS3Url : ParsedS3Url} {name token directory : Text}
    (lists : ListsCurrent environment parsedS3Url bucket requestsOf name token
      (some (directory, []))) :
    name ≠ [] ∧ token = [] ∧ environment.decode name = directory ∧
      mayMatch environment.glob parsedS3Url directory = false := by
  generalize current : some (directory, ([] : List (Page S3ListQuery Text Text))) = left at lists
  cases lists with
  | idle => contradiction
  | passes named skips =>
      cases current
      exact ⟨named, rfl, rfl, skips⟩
  | lists named matching listing part =>
      obtain ⟨-, empty⟩ := Prod.mk.inj (Option.some.inj current)
      exact absurd (List.map_eq_nil_iff.mp empty.symm) listing.ne_nil

/-- What is left of a directory that the walk lists. -/
theorem ListsCurrent.lists_inv {parsedS3Url : ParsedS3Url} {name token directory : Text}
    {page : Page S3ListQuery Text Text} {rest : List (Page S3ListQuery Text Text)}
    (lists : ListsCurrent environment parsedS3Url bucket requestsOf name token
      (some (directory, page :: rest))) :
    name ≠ [] ∧ environment.decode name = directory ∧
      mayMatch environment.glob parsedS3Url directory = true ∧
      ∃ query queries, query = ⟨bucket, askedPrefix directory, token, .hierarchical⟩ ∧
        page = servedPage environment parsedS3Url query ∧
        rest = queries.map (servedPage environment parsedS3Url) ∧
        query :: queries <:+ requestsOf (askedPrefix directory) ∧
        ((environment.service query).continuationToken = [] ∧ queries = [] ∨
          (environment.service query).continuationToken ≠ [] ∧
            Listing environment bucket (askedPrefix directory) .hierarchical
              (environment.service query).continuationToken queries) := by
  generalize current : some (directory, page :: rest) = left at lists
  cases lists with
  | idle => contradiction
  | passes named skips =>
      obtain ⟨-, impossible⟩ := Prod.mk.inj (Option.some.inj current)
      contradiction
  | lists named matching listing part =>
      obtain ⟨rfl, pages⟩ := Prod.mk.inj (Option.some.inj current)
      refine ⟨named, rfl, matching, ?_⟩
      cases listing with
      | last noMore =>
          obtain ⟨rfl, rfl⟩ := List.cons.inj pages
          exact ⟨_, [], rfl, rfl, rfl, part, .inl ⟨noMore, rfl⟩⟩
      | more continues listing =>
          obtain ⟨rfl, rfl⟩ := List.cons.inj pages
          exact ⟨_, _, rfl, rfl, rfl, part, .inr ⟨continues, listing⟩⟩

/-- A call for a directory below which the pattern does not match sends nothing. -/
theorem Follows.step_passes (serves : Serves environment bucket content requestsOf)
    {result : S3GlobResult} {outer : List (Page S3ListQuery Text Text)} {directory : Text}
    {stack : List Text}
    (follows : Follows environment base bucket literal mode requestsOf result
      ⟨outer, some (directory, []), stack⟩) :
    ∃ next, CallReads environment result next none ∧
      Follows environment base bucket literal mode requestsOf next
        (PagedWalk.select (visit environment base.parsedS3Url requestsOf) outer stack) := by
  have unfinished : result.finished = false := by
    rw [follows.finished]
    exact Bool.and_false _
  obtain ⟨named, idle, rfl, skips⟩ := follows.current.passes_inv
  have target : SameTarget base (passedDirectory environment result) :=
    follows.target.trans ⟨rfl, rfl, rfl⟩
  rw [← follows.parsed] at skips
  have scans : scanCurrentCommonPrefix environment result =
      .ok (selectNextCommonPrefix (passedDirectory environment result), []) := by
    rw [scanCurrentCommonPrefix]
    dsimp only
    rw [mayMatch] at skips
    rw [if_neg (by simp [skips]), pure_bind]
    dsimp only
    rw [if_pos (by simp [idle])]
    rfl
  refine ⟨_, ⟨expandNextPath_of_scanCurrent unfinished named scans, ?_, ?_⟩, ?_⟩
  · rw [sentQueries, if_neg (by simp [unfinished]), if_pos (by simpa using named),
      if_neg (by simp [skips])]
    rfl
  · change (selectNextCommonPrefix _).expandedFiles ++ [] = _
    rw [selectNextCommonPrefix_files]
    rfl
  · have selected := @ListsOuter.select _ _ _ _ mode _ _ serves
      (passedDirectory environment result) outer
      ⟨target, follows.hierarchical, ?_, follows.listing, follows.outerNamed, follows.named⟩
      unfinished (follows.begun rfl) idle []
    · have stackIs := follows.stack
      change (passedDirectory environment result).commonPrefixes.map environment.decode = stack
        at stackIs
      rw [stackIs] at selected
      exact selected
    · exact follows.decided

/-- What a call lists of the current directory. -/
theorem scanCurrent_of_matches (located : Located base bucket literal) {result : S3GlobResult}
    (target : SameTarget base result) {directory : Text}
    (keeps : KeepsName environment base.parsedS3Url bucket directory)
    (decodes : environment.decode result.currentCommonPrefix = directory)
    (matching : mayMatch environment.glob base.parsedS3Url directory = true) :
    scanCurrentCommonPrefix environment result =
        .ok (let response := environment.service ⟨bucket, askedPrefix directory,
                result.commonPrefixContinuationToken, .hierarchical⟩
          (if response.continuationToken.isEmpty then
              selectNextCommonPrefix (tookPage environment result response)
            else tookPage environment result response, listedFiles environment response)) ∧
      queryFor result.authParams (currentUrl environment.decode result)
          result.commonPrefixContinuationToken .hierarchical =
        [⟨bucket, askedPrefix directory, result.commonPrefixContinuationToken, .hierarchical⟩] := by
  obtain ⟨parsedUrl, parses, rfl, isKey⟩ := located.directory directory
  have url : currentUrl environment.decode result =
      base.parsedS3Url.urlPrefix ++ base.parsedS3Url.bucket ++ "/".toList ++ directory := by
    rw [currentUrl, target.parsed, keeps.front _ decodes]
  have requests : listRequest environment result.authParams (currentUrl environment.decode result)
      result.commonPrefixContinuationToken .hierarchical =
        .ok (environment.service ⟨parsedUrl.bucket, askedPrefix directory,
          result.commonPrefixContinuationToken, .hierarchical⟩) := by
    rw [listRequest, url, target.auth, parses, ← isKey]
    rfl
  constructor
  · rw [mayMatch, ← target.parsed, ← decodes] at matching
    rw [scanCurrentCommonPrefix_of_matches matching, listCurrentPage]
    rw [currentUrl] at requests
    dsimp only
    rw [requests]
    apply bind_eq_ok_iff.mpr
    refine ⟨_, rfl, ?_⟩
    split
    · rfl
    · rfl
  · rw [queryFor, url, target.auth, parses, ← isKey]

/-- Where a directory has another page, its name is decoded to itself. -/
theorem KeepsName.decode_eq {parsedS3Url : ParsedS3Url} {directory : Text}
    (keeps : KeepsName environment parsedS3Url bucket directory)
    (serves : Serves environment bucket content requestsOf) {query : S3ListQuery}
    {queries : List S3ListQuery} (part : query :: queries <:+ requestsOf (askedPrefix directory))
    (more : queries ≠ []) : environment.decode directory = directory := by
  rcases keeps.again with single | same
  · have isWhole := (serves.listing (askedPrefix directory)).unique (.last single)
    rw [isWhole] at part
    have length := part.length_le
    rw [List.length_cons, List.length_singleton] at length
    exact absurd (List.length_eq_zero_iff.mp (Nat.le_zero.mp (Nat.le_of_succ_le_succ length))) more
  · exact same

/-- A call for a directory below which the pattern may match reads the next page of it. -/
theorem Follows.step_lists (located : Located base bucket literal)
    (serves : Serves environment bucket content requestsOf) {result : S3GlobResult}
    {outer rest : List (Page S3ListQuery Text Text)} {page : Page S3ListQuery Text Text}
    {directory : Text} {stack : List Text}
    (follows : Follows environment base bucket literal mode requestsOf result
      ⟨outer, some (directory, page :: rest), stack⟩)
    (keeps : KeepsName environment base.parsedS3Url bucket directory) (isNamed : directory ≠ []) :
    ∃ next, CallReads environment result next (some page) ∧
      Follows environment base bucket literal mode requestsOf next
        (PagedWalk.settle (visit environment base.parsedS3Url requestsOf)
          ⟨outer, some (directory, rest), stack ++ page.nodes⟩) := by
  have unfinished : result.finished = false := by
    rw [follows.finished]
    exact Bool.and_false _
  obtain ⟨named, decodes, matching, query, queries, isQuery, rfl, rfl, part, restLists⟩ :=
    follows.current.lists_inv
  obtain ⟨scans, asks⟩ := scanCurrent_of_matches located follows.target keeps decodes matching
  rw [← isQuery] at scans asks
  dsimp only at scans
  have target : SameTarget base (tookPage environment result (environment.service query)) :=
    follows.target.trans ⟨rfl, rfl, rfl⟩
  have sends : sentQueries environment result = [query] := by
    rw [← follows.parsed, ← decodes] at matching
    rw [sentQueries, if_neg (by simp [unfinished]), if_pos (by simpa using named),
      if_pos matching, asks]
  have pageNamed : ∀ name ∈ (environment.service query).commonPrefixes, name ≠ [] :=
    serves.named _ query (part.subset List.mem_cons_self)
  have outerLists : ListsOuter environment base bucket literal mode
      (tookPage environment result (environment.service query)) outer := by
    refine ⟨target, follows.hierarchical, follows.decided, follows.listing, follows.outerNamed, ?_⟩
    intro name member
    exact (List.mem_append.mp member).elim (follows.named name) (pageNamed name)
  have stackIs : (tookPage environment result (environment.service query)).commonPrefixes.map
      environment.decode = stack ++ (servedPage environment base.parsedS3Url query).nodes := by
    rw [tookPage, List.map_append, follows.stack]
    rfl
  rcases restLists with ⟨noMore, rfl⟩ | ⟨continues, listing⟩
  · rw [if_pos (List.isEmpty_iff.mpr noMore)] at scans
    refine ⟨_, ⟨expandNextPath_of_scanCurrent unfinished named scans, sends, ?_⟩, ?_⟩
    · rw [finishCall_files target.select, selectNextCommonPrefix_files]
      simp [tookPage]
    · have selected := ListsOuter.select serves outerLists unfinished (follows.begun rfl) noMore
        (listedFiles environment (environment.service query))
      rw [stackIs] at selected
      exact selected
  · rw [if_neg (by simpa using continues)] at scans
    refine ⟨_, ⟨expandNextPath_of_scanCurrent unfinished named scans, sends, ?_⟩, ?_⟩
    · rw [finishCall_files target]
      simp [tookPage]
    · have decodesAgain := keeps.decode_eq serves part listing.ne_nil
      have current : ListsCurrent environment base.parsedS3Url bucket requestsOf
          (environment.decode result.currentCommonPrefix)
          (environment.service query).continuationToken
          (some (directory, queries.map (servedPage environment base.parsedS3Url))) := by
        rw [decodes]
        have lists := @ListsCurrent.lists environment base.parsedS3Url bucket requestsOf directory
          (environment.service query).continuationToken queries isNamed
        rw [decodesAgain] at lists
        exact lists matching listing ((List.suffix_cons query queries).trans part)
      have unsettled : PagedWalk.settle (visit environment base.parsedS3Url requestsOf)
          ⟨outer, some (directory, queries.map (servedPage environment base.parsedS3Url)),
            stack ++ (servedPage environment base.parsedS3Url query).nodes⟩ =
          ⟨outer, some (directory, queries.map (servedPage environment base.parsedS3Url)),
            stack ++ (servedPage environment base.parsedS3Url query).nodes⟩ := by
        cases queries with
        | nil => exact absurd rfl listing.ne_nil
        | cons next queries => rfl
      rw [unsettled]
      refine ⟨outerLists.congr ⟨rfl, rfl, rfl⟩ rfl rfl outerLists.named, ?_,
        fun _ => follows.begun rfl, stackIs, ?_, current⟩
      · change (result.finished || result.mainContinuationToken.isEmpty &&
          (environment.decode result.currentCommonPrefix).isEmpty) = (outer.isEmpty && false)
        rw [unfinished, decodes, List.isEmpty_eq_false_iff.mpr isNamed, Bool.and_false,
          Bool.and_false]
        rfl
      · intro impossible
        contradiction

/-! ## Calls follow the tour -/

/-- Whether the current directory of a walk can be listed under its name. -/
def CurrentKept (environment : Environment) (parsedS3Url : ParsedS3Url) (bucket : Text)
    (walk : PagedWalk S3ListQuery Text Text) : Prop :=
  ∀ directory pages, walk.current = some (directory, pages) → directory ≠ [] ∧
    (mayMatch environment.glob parsedS3Url directory = true →
      KeepsName environment parsedS3Url bucket directory)

/-- A call of a walk that follows a tour is a step of the tour. -/
theorem Follows.step (located : Located base bucket literal)
    (serves : Serves environment bucket content requestsOf) {result : S3GlobResult}
    {walk : PagedWalk S3ListQuery Text Text}
    (follows : Follows environment base bucket literal mode requestsOf result walk)
    (unfinished : result.finished = false)
    (kept : CurrentKept environment base.parsedS3Url bucket walk) :
    ∃ next page after, CallReads environment result next page ∧
      PagedWalk.Step (visit environment base.parsedS3Url requestsOf) walk page after ∧
      Follows environment base bucket literal mode requestsOf next after := by
  rcases walk with ⟨outer, current, stack⟩
  cases current with
  | none =>
      obtain rfl : stack = [] := follows.bottom rfl
      cases outer with
      | nil =>
          have finished : result.finished = true := follows.finished
          rw [unfinished] at finished
          contradiction
      | cons page rest =>
          obtain ⟨next, reads, after⟩ := follows.step_outer located serves
          exact ⟨next, some page, _, reads, ⟨_, .outer, rfl⟩, after⟩
  | some current =>
      rcases current with ⟨directory, pages⟩
      cases pages with
      | nil =>
          obtain ⟨next, reads, after⟩ := follows.step_passes serves
          exact ⟨next, none, _, reads, ⟨_, .pass, rfl⟩, after⟩
      | cons page rest =>
          obtain ⟨isNamed, keeps⟩ := kept directory (page :: rest) rfl
          obtain ⟨-, -, matching, -⟩ := follows.current.lists_inv
          obtain ⟨next, reads, after⟩ := follows.step_lists located serves (keeps matching) isNamed
          exact ⟨next, some page, _, reads, ⟨_, .current, rfl⟩, after⟩

end Httpfs.S3.Glob
