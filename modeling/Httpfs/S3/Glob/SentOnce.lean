import Httpfs.S3.Glob.Ending

/-!
# Walks send no request twice

Where a walk ends, each of its calls sends a request that none of the calls before it has
sent, or drops a directory without a request.
-/

namespace Httpfs.S3.Glob

open Text S3GlobMatchMode Transition

variable {environment : Environment} {start : S3GlobResult} {bucket literal : Text}
variable {mode : S3ListMode} {requestsOf : Text → List S3ListQuery} {content : List Text}

/-! ## The forest of directories -/

/-- A directory is below those whose name it starts with. -/
def Below (directory above : Text) : Prop :=
  above <+: directory

/-- The directories of one listing are not below each other. -/
theorem Serves.pairwise_apart (serves : Serves environment bucket content requestsOf)
    (keyPrefix : Text) : ((requestsOf keyPrefix).flatMap (listedDirectories environment)).Pairwise
      (PagedWalk.Apart Below) := by
  have distinct := ((serves.directories keyPrefix).nodup_iff).mpr (List.nodup_dedup _)
  apply List.Pairwise.imp_of_mem _ distinct
  intro child other isChild isOther different
  have isChild := (serves.directories _).mem_iff.mp isChild
  have isOther := (serves.directories _).mem_iff.mp isOther
  constructor
  · exact fun below => different (eq_of_children_below isOther isChild below).symm
  · exact fun below => different (eq_of_children_below isChild isOther below)

/-- The directories of a bucket form a forest, and each is asked for by requests of its own. -/
theorem Serves.forest (serves : Serves environment bucket content requestsOf)
    (noQuestion : '?' ∉ literal) (unmarked : Unmarked environment start content literal)
    {outerQueries : List S3ListQuery}
    (outer : ∀ query ∈ outerQueries, query.keyPrefix.length ≤ literal.length) :
    PagedWalk.Forest (visit environment start.parsedS3Url requestsOf) Below
      (Reached environment start literal content) outerQueries := by
  have plain : ∀ directory, Reached environment start literal content directory →
      mayMatch environment.glob start.parsedS3Url directory = true → '?' ∉ directory :=
    fun directory reached => unmarked reached.byDirectory directory reached.toIsDirectory
  have asks : ∀ directory, Reached environment start literal content directory →
      ∀ request ∈ (visit environment start.parsedS3Url requestsOf directory).map Page.request,
        request.keyPrefix = directory := by
    intro directory reached request member
    obtain ⟨page, inVisit, rfl⟩ := List.mem_map.mp member
    obtain ⟨matching, query, isRequest, rfl⟩ := Glob.mem_visit inVisit
    have parts := ((serves.listing _).exists_of_mem isRequest).1
    rw [askedPrefix_of_not_mem (plain directory reached matching)] at parts
    exact congrArg S3ListQuery.keyPrefix parts
  constructor
  · exact Reached.closed serves noQuestion
  · exact fun directory => List.prefix_rfl
  · exact fun lower upper => upper.trans lower
  · intro lower directory other below belowOther
    exact (List.prefix_or_prefix_of_prefix below belowOther).symm
  · intro directory isDirectory child member
    obtain ⟨matching, isChild⟩ := serves.mem_visit member
    rw [askedPrefix_of_not_mem (plain directory isDirectory matching)] at isChild
    have longer := children_longer isChild
    constructor
    · obtain ⟨⟨segment, -, rfl⟩, -⟩ := mem_children.mp isChild
      rw [Below, List.append_assoc]
      exact List.prefix_append _ _
    · intro above
      exact absurd above.length_le (Nat.not_le_of_lt longer)
  · intro directory isDirectory
    rw [visit]
    split
    · rw [List.flatMap_map]
      exact serves.pairwise_apart _
    · exact List.Pairwise.nil
  · intro directory isDirectory
    rw [visit]
    split
    · rw [List.map_map]
      exact (List.map_id _).symm ▸ (serves.listing _).nodup
    · exact List.Pairwise.nil
  · intro directory other isDirectory isOther different request isRequest again
    exact different ((asks directory isDirectory request isRequest).symm.trans
      (asks other isOther request again))
  · intro directory isDirectory request isRequest isOuter
    have short := outer request isOuter
    rw [asks directory isDirectory request isRequest] at short
    exact absurd isDirectory.longer (Nat.not_lt_of_le short)

/-! ## Calls -/

/-- What the calls of a walk have sent. -/
inductive Calls (environment : Environment) (start : S3GlobResult) :
    (sent : List S3ListQuery) → (result : S3GlobResult) → Prop
  | none : Calls environment start [] start
  | call {sent : List S3ListQuery} {result next : S3GlobResult}
      (before : Calls environment start sent result)
      (expands : expandNextPath environment result = .ok next) :
      Calls environment start (sent ++ sentQueries environment result) next

/-- What the calls of a walk on its tour have sent: the requests for its pages, after a flat
one where the walk changed over. -/
structure SendsTour (environment : Environment) (start : S3GlobResult) (bucket literal : Text)
    (content : List Text) (mode : S3ListMode) (requestsOf : Text → List S3ListQuery)
    (outerQueries sent : List S3ListQuery) (result : S3GlobResult)
    (walk : PagedWalk S3ListQuery Text Text) : Prop
    extends OnTour environment start bucket literal content mode requestsOf result walk where
  apart : ∃ wasted visited onTour, sent = wasted ++ onTour ∧
    (wasted = [] ∨ mode = .hierarchical ∧ ∃ flat : S3ListQuery, wasted = [flat] ∧
      flat.mode = .flat) ∧
    PagedWalk.Distinct (visit environment start.parsedS3Url requestsOf) Below
      (Reached environment start literal content) outerQueries visited onTour walk

/-- On its tour a walk has sent no request twice. -/
theorem SendsTour.nodup (serves : Serves environment bucket content requestsOf)
    {outerQueries sent : List S3ListQuery} {result : S3GlobResult}
    {walk : PagedWalk S3ListQuery Text Text}
    (outer : ∀ query ∈ outerQueries, query.mode = mode)
    (sends : SendsTour environment start bucket literal content mode requestsOf outerQueries sent
      result walk) : sent.Nodup := by
  obtain ⟨wasted, visited, onTour, rfl, wastes, distinct⟩ := sends.apart
  have nodup := (List.nodup_append.mp distinct.nodup).1
  rcases wastes with rfl | ⟨rfl, flat, rfl, isFlat⟩
  · exact nodup
  · refine List.nodup_cons.mpr ⟨?_, nodup⟩
    intro again
    have isHierarchical : flat.mode = .hierarchical := by
      rcases distinct.origin flat (List.mem_append_left _ again) with
        isOuter | ⟨directory, -, isRequest⟩
      · exact outer flat isOuter
      · obtain ⟨page, inVisit, rfl⟩ := List.mem_map.mp isRequest
        obtain ⟨-, query, isQuery, rfl⟩ := Glob.mem_visit inVisit
        rw [servedPage, ((serves.listing _).exists_of_mem isQuery).1]
    rw [isFlat] at isHierarchical
    contradiction

theorem SendsTour.step (located : Located start bucket literal)
    (serves : Serves environment bucket content requestsOf)
    (kept : listsByDirectory environment start = true →
      KeepsNames environment start.parsedS3Url content bucket literal)
    (unmarked : Unmarked environment start content literal)
    {outerQueries sent : List S3ListQuery} {result next : S3GlobResult}
    {walk : PagedWalk S3ListQuery Text Text}
    (outer : ∀ query ∈ outerQueries, query.keyPrefix.length ≤ literal.length)
    (sends : SendsTour environment start bucket literal content mode requestsOf outerQueries sent
      result walk)
    (expands : expandNextPath environment result = .ok next) :
    ∃ after, SendsTour environment start bucket literal content mode requestsOf outerQueries
      (sent ++ sentQueries environment result) next after := by
  by_cases finished : result.finished = true
  · rw [expandNextPath, if_pos finished] at expands
    cases expands
    rw [sentQueries, if_pos finished, List.append_nil]
    exact ⟨walk, sends⟩
  · obtain ⟨other, page, after, reads, steps, stays⟩ :=
      sends.toOnTour.step located serves kept (Bool.not_eq_true _ ▸ finished)
    obtain rfl : next = other := Except.ok.inj (expands.symm.trans reads.expands)
    obtain ⟨wasted, visited, onTour, rfl, wastes, distinct⟩ := sends.apart
    obtain ⟨later, goesOn⟩ :=
      distinct.step (serves.forest located.noQuestion unmarked outer) steps
    refine ⟨after, stays, wasted, later, onTour ++ page.toList.map Page.request, ?_, wastes, goesOn⟩
    rw [reads.sends, List.append_assoc]

theorem TopLevel.asked {queries : List S3ListQuery}
    (topLevel : TopLevel environment bucket literal content requestsOf mode queries) :
    ∀ query ∈ queries, query.mode = mode ∧ query.keyPrefix.length ≤ literal.length := by
  intro query member
  rw [(topLevel.listing.exists_of_mem member).1]
  exact ⟨rfl, Nat.le_refl _⟩

/-- Before its first call a walk has all directories of the top level apart. -/
theorem TopLevel.distinct (serves : Serves environment bucket content requestsOf)
    {queries : List S3ListQuery}
    (topLevel : TopLevel environment bucket literal content requestsOf mode queries)
    (within : PagedWalk.Within (Reached environment start literal content)
      ⟨queries.map (servedPage environment start.parsedS3Url), none, []⟩) :
    PagedWalk.Distinct (visit environment start.parsedS3Url requestsOf) Below
      (Reached environment start literal content) queries [] []
      ⟨queries.map (servedPage environment start.parsedS3Url), none, []⟩ := by
  have requests : [] ++ (PagedWalk.pages
      ⟨queries.map (servedPage environment start.parsedS3Url), none, []⟩).map Page.request =
        queries := by
    change (queries.map (servedPage environment start.parsedS3Url)).map Page.request = queries
    rw [List.map_map]
    exact List.map_id _
  refine ⟨within, ?_, ?_, ?_, ?_, ?_⟩
  · intro directory impossible
    contradiction
  · change ((queries.map (servedPage environment start.parsedS3Url)).flatMap Page.nodes).Pairwise _
    rw [List.flatMap_map]
    cases mode with
    | flat =>
        have none : queries.flatMap (listedDirectories environment) = [] := by
          rw [List.flatMap_eq_nil_iff]
          intro query member
          rw [listedDirectories, (topLevel.flat rfl).1 query member]
          rfl
        exact none ▸ List.Pairwise.nil
    | hierarchical =>
        rw [topLevel.byDirectory rfl]
        exact serves.pairwise_apart literal
  · intro directory _ earlier impossible
    contradiction
  · rw [requests]
    exact topLevel.listing.nodup
  · intro request member
    rw [requests] at member
    exact .inl member

theorem Fresh.sendsTour (fresh : Fresh start) (located : Located start bucket literal)
    (lists : ListsBucket environment bucket content)
    (unmarked : Unmarked environment start content literal) :
    ∃ requestsOf mode outerQueries next after,
      Serves environment bucket content requestsOf ∧
      (∀ query ∈ outerQueries, query.mode = mode ∧ query.keyPrefix.length ≤ literal.length) ∧
      expandNextPath environment start = .ok next ∧
      SendsTour environment start bucket literal content mode requestsOf outerQueries
        (sentQueries environment start) next after := by
  obtain ⟨requestsOf, serves⟩ := lists.byDirectory.exists_serves
  obtain ⟨mode, query, rest, wasted, next, first⟩ :=
    exists_firstCall located fresh serves lists.flat
  obtain ⟨after, steps, within, onTour⟩ := first.onTour located serves
  have asked := first.topLevel.asked
  have begins := first.topLevel.distinct serves within
  obtain ⟨visited, distinct⟩ := begins.step (serves.forest located.noQuestion unmarked
    fun query member => (asked query member).2) steps
  exact ⟨requestsOf, mode, _, next, after, serves, asked, first.expands, onTour, wasted, visited,
    [query], first.sends, first.wastes, distinct⟩

/-- A walk that comes to no directory with a question mark sends no request twice. -/
theorem Calls.nodup (fresh : Fresh start)
    (locates : (∃ listed, parse start.sharedPath start.authParams = .ok listed) →
      Located start bucket literal)
    (lists : ListsBucket environment bucket content)
    (kept : listsByDirectory environment start = true →
      KeepsNames environment start.parsedS3Url content bucket literal)
    (unmarked : Unmarked environment start content literal)
    {sent : List S3ListQuery} {result : S3GlobResult}
    (calls : Calls environment start sent result) : sent.Nodup := by
  have onTour : sent = [] ∧ result = start ∨ Located start bucket literal ∧
      ∃ requestsOf mode outerQueries walk, Serves environment bucket content requestsOf ∧
        (∀ query ∈ outerQueries, query.mode = mode ∧ query.keyPrefix.length ≤ literal.length) ∧
        SendsTour environment start bucket literal content mode requestsOf outerQueries sent result
          walk := by
    induction calls with
    | none => exact .inl ⟨rfl, rfl⟩
    | call before expands inductionHypothesis =>
        right
        rcases inductionHypothesis with ⟨rfl, rfl⟩ |
          ⟨located, requestsOf, mode, outerQueries, walk, serves, asked, sends⟩
        · have located := locates (exists_listed fresh expands)
          obtain ⟨requestsOf, mode, outerQueries, next, after, serves, asked, first, sends⟩ :=
            fresh.sendsTour located lists unmarked
          cases Except.ok.inj (expands.symm.trans first)
          exact ⟨located, requestsOf, mode, outerQueries, after, serves, asked, sends⟩
        · obtain ⟨after, goesOn⟩ := sends.step located serves kept unmarked
            (fun query member => (asked query member).2) expands
          exact ⟨located, requestsOf, mode, outerQueries, after, serves, asked, goesOn⟩
  rcases onTour with ⟨rfl, -⟩ | ⟨-, requestsOf, mode, outerQueries, walk, serves, asked, sends⟩
  · exact List.nodup_nil
  · exact sends.nodup serves fun query member => (asked query member).1

/-! ## Whole walks -/

/-- The calls of a walk read nothing of the service but the answers to what they send. -/
theorem Calls.congr {service : S3ListQuery → S3ListObjectsV2Result} {sent : List S3ListQuery}
    {result : S3GlobResult} (calls : Calls environment start sent result)
    (same : ∀ query ∈ sent, service query = environment.service query) :
    Calls { environment with service } start sent result := by
  induction calls with
  | none => exact .none
  | call before expands inductionHypothesis =>
      have earlier := inductionHypothesis fun query member =>
        same query (List.mem_append_left _ member)
      have here := fun query member => same query (List.mem_append_right _ member)
      rw [← expandNextPath_congr here] at expands
      rw [← sentQueries_congr here]
      exact .call earlier expands

/-- A walk that comes to no directory with a question mark sends no request twice, however
many calls are made; and what its calls do depends on the answers to these requests only. -/
theorem walk_sends_once {globPattern : Text} {authParams : S3AuthParams} {walk : S3GlobResult}
    {reserved : Text → Bool} {aliases : List Text}
    (routed : (tryMatchUrlOrAlias globPattern
      (getSchemeAliasPrefixes reserved aliases)).isSome = true)
    (opens : openGlob environment globPattern authParams = .ok walk)
    (unfinished : walk.finished = false) (globType : GlobType)
    (lists : ListsBucket environment walk.parsedS3Url.bucket content)
    (kept : listsByDirectory environment { walk with globType } = true →
      KeepsNames environment walk.parsedS3Url content walk.parsedS3Url.bucket
          (literalPart walk.parsedS3Url.key) ∧
        NoQuestionMark environment.glob walk.parsedS3Url content
          (literalPart walk.parsedS3Url.key))
    {sent : List S3ListQuery} {result : S3GlobResult}
    (calls : Calls environment { walk with globType } sent result) :
    sent.Nodup ∧ ∀ service : S3ListQuery → S3ListObjectsV2Result,
      (∀ query ∈ sent, service query = environment.service query) →
        Calls { environment with service } { walk with globType } sent result := by
  refine ⟨?_, fun service same => calls.congr same⟩
  have fresh := openGlob_fresh opens unfinished globType
  exact calls.nodup fresh (openGlob_located routed opens unfinished globType) lists
    (fun byDirectory => (kept byDirectory).1) (fun byDirectory => (kept byDirectory).2)

/-- The first calls over `s3://b/d/*/x` by directory ask for the two pages of `d/`. -/
theorem walk_sends_once_twoPages :
    ∃ result, Calls (twoPageBucket ["d/e/x".toList, "d/f/x".toList] 0)
        { starWalk with globType := .hierarchical }
        [⟨"b".toList, "d/".toList, [], .hierarchical⟩,
          ⟨"b".toList, "d/".toList, "t".toList, .hierarchical⟩] result ∧
      List.Nodup [(⟨"b".toList, "d/".toList, [], .hierarchical⟩ : S3ListQuery),
        ⟨"b".toList, "d/".toList, "t".toList, .hierarchical⟩] := by
  have calls : Calls (twoPageBucket ["d/e/x".toList, "d/f/x".toList] 0)
      { starWalk with globType := .hierarchical } _ _ := .call (.call .none rfl) rfl
  refine ⟨_, calls, ?_⟩
  exact (walk_sends_once starWalk_routed openGlob_starWalk rfl .hierarchical
    (twoPageBucket_listsBucket _ (by decide)) (fun _ => ⟨starWalk_keepsNames (by decide),
      starWalk_noQuestionMark (by decide)⟩) calls).1

end Httpfs.S3.Glob
