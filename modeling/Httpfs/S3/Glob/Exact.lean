import Httpfs.S3.Glob.PagingService

/-!
# Walks report every key once

A walk reports the keys of a bucket that match its pattern, each of them once, whether it
lists the bucket flat or by directory.  It ends, and no request is sent twice, unless a
directory that it lists has a question mark in its name.
-/

namespace Httpfs.S3.Glob

open Text S3GlobMatchMode Transition

variable {environment : Environment} {start : S3GlobResult} {bucket literal : Text}
variable {mode : S3ListMode} {requestsOf : Text → List S3ListQuery} {content : List Text}

/-! ## Directories that are reached -/

/-- The directories a walk may come to. -/
structure Reached (environment : Environment) (start : S3GlobResult) (literal : Text)
    (content : List Text) (directory : Text) : Prop
    extends IsDirectory content literal directory where
  byDirectory : listsByDirectory environment start = true
  again : '?' ∈ directory → directory ∈ children content (askedPrefix directory)

theorem reached_of_mem_children {keyPrefix directory : Text}
    (byDirectory : listsByDirectory environment start = true) (starts : literal <+: keyPrefix)
    (free : '?' ∉ keyPrefix) (isChild : directory ∈ children content keyPrefix) :
    Reached environment start literal content directory where
  toIsDirectory := isDirectory_of_mem_children starts isChild
  byDirectory := byDirectory
  again := mem_children_askedPrefix free isChild

theorem Reached.closed (serves : Serves environment bucket content requestsOf)
    (noQuestion : '?' ∉ literal) :
    PagedWalk.Closed (visit environment start.parsedS3Url requestsOf)
      (Reached environment start literal content) := by
  intro directory reached child member
  obtain ⟨free, starts⟩ := reached.toIsDirectory.askedPrefix noQuestion
  exact reached_of_mem_children reached.byDirectory starts free (serves.mem_visit member).2

/-- A directory with a question mark is found again where it is listed. -/
theorem Reached.recurs (serves : Serves environment bucket content requestsOf) {directory : Text}
    (reached : Reached environment start literal content directory)
    (matching : mayMatch environment.glob start.parsedS3Url directory = true)
    (question : '?' ∈ directory) :
    directory ∈ (visit environment start.parsedS3Url requestsOf directory).flatMap Page.nodes := by
  rw [visit, if_pos matching, List.flatMap_map]
  exact (serves.directories _).mem_iff.mpr (reached.again question)

/-! ## On the tour -/

/-- A walk that follows its tour through directories it can list. -/
structure OnTour (environment : Environment) (start : S3GlobResult) (bucket literal : Text)
    (content : List Text) (mode : S3ListMode) (requestsOf : Text → List S3ListQuery)
    (result : S3GlobResult) (walk : PagedWalk S3ListQuery Text Text) : Prop
    extends Follows environment start bucket literal mode requestsOf result walk where
  within : walk.Within (Reached environment start literal content)
  reached : ∀ directory pages, walk.current = some (directory, pages) →
    Reached environment start literal content directory

theorem OnTour.step (located : Located start bucket literal)
    (serves : Serves environment bucket content requestsOf)
    (kept : listsByDirectory environment start = true →
      KeepsNames environment start.parsedS3Url content bucket literal)
    {result : S3GlobResult} {walk : PagedWalk S3ListQuery Text Text}
    (onTour : OnTour environment start bucket literal content mode requestsOf result walk)
    (unfinished : result.finished = false) :
    ∃ next page after, CallReads environment result next page ∧
      PagedWalk.Step (visit environment start.parsedS3Url requestsOf) walk page after ∧
      OnTour environment start bucket literal content mode requestsOf next after := by
  have currentKept : CurrentKept environment start.parsedS3Url bucket walk := by
    intro directory pages current
    have reached := onTour.reached directory pages current
    refine ⟨?_, kept reached.byDirectory directory reached.toIsDirectory⟩
    rintro rfl
    exact absurd reached.longer (Nat.not_lt_zero _)
  obtain ⟨next, page, after, reads, steps, follows⟩ :=
    onTour.toFollows.step located serves unfinished currentKept
  refine ⟨next, page, after, reads, steps, follows, ?_, ?_⟩
  · exact onTour.within.step (Reached.closed serves located.noQuestion) steps
  · intro directory pages current
    rcases steps.current current with isPending | ⟨before, wasCurrent⟩
    · exact onTour.within directory isPending
    · exact onTour.reached directory before wasCurrent

/-- A finished walk has nothing left. -/
theorem OnTour.finished_inv {result : S3GlobResult} {walk : PagedWalk S3ListQuery Text Text}
    (onTour : OnTour environment start bucket literal content mode requestsOf result walk)
    (finished : result.finished = true) : walk = ⟨[], none, []⟩ := by
  rcases walk with ⟨outer, current, stack⟩
  have ends := onTour.finished
  rw [finished] at ends
  obtain ⟨noOuter, noCurrent⟩ := Bool.and_eq_true_iff.mp ends.symm
  obtain rfl : outer = [] := List.isEmpty_iff.mp noOuter
  obtain rfl : current = none := Option.isNone_iff_eq_none.mp noCurrent
  obtain rfl : stack = [] := onTour.bottom rfl
  rfl

/-- The walk after its first call. -/
theorem FirstCall.onTour (located : Located start bucket literal)
    (serves : Serves environment bucket content requestsOf) {query : S3ListQuery}
    {rest wasted : List S3ListQuery} {next : S3GlobResult}
    (first : FirstCall environment start bucket literal content requestsOf mode query rest wasted
      next) :
    ∃ after, PagedWalk.Step (visit environment start.parsedS3Url requestsOf)
        ⟨(query :: rest).map (servedPage environment start.parsedS3Url), none, []⟩
        (some (servedPage environment start.parsedS3Url query)) after ∧
      PagedWalk.Within (Reached environment start literal content)
        ⟨(query :: rest).map (servedPage environment start.parsedS3Url), none, []⟩ ∧
      OnTour environment start bucket literal content mode requestsOf next after := by
  have within : PagedWalk.Within (Reached environment start literal content)
      ⟨(query :: rest).map (servedPage environment start.parsedS3Url), none, []⟩ := by
    intro directory member
    rw [PagedWalk.pending, List.nil_append] at member
    obtain ⟨page, isPage, isNode⟩ := List.mem_flatMap.mp member
    obtain ⟨asked, isAsked, rfl⟩ := List.mem_map.mp isPage
    cases mode with
    | flat =>
        have none := (first.topLevel.flat rfl).1 asked isAsked
        rw [servedPage, listedDirectories, none] at isNode
        contradiction
    | hierarchical =>
        rw [first.topLevel.byDirectory rfl] at isAsked
        have isChild := (serves.directories literal).mem_iff.mp
          (List.mem_flatMap.mpr ⟨asked, isAsked, isNode⟩)
        exact reached_of_mem_children (first.byDirectory.mp rfl) List.prefix_rfl
          located.noQuestion isChild
  have steps : PagedWalk.Step (visit environment start.parsedS3Url requestsOf)
      ⟨(query :: rest).map (servedPage environment start.parsedS3Url), none, []⟩
      (some (servedPage environment start.parsedS3Url query)) _ := ⟨_, .outer, rfl⟩
  refine ⟨_, steps, within, first.follows, ?_, ?_⟩
  · exact within.step (Reached.closed serves located.noQuestion) steps
  · intro directory pages current
    rcases steps.current current with isPending | ⟨before, impossible⟩
    · exact within directory isPending
    · contradiction

/-! ## Exactness -/

/-- A directory with a question mark that is to be listed. -/
structure Marked (environment : Environment) (start : S3GlobResult) (literal : Text)
    (content : List Text) (directory : Text) : Prop
    extends Reached environment start literal content directory where
  matching : mayMatch environment.glob start.parsedS3Url directory = true
  question : '?' ∈ directory

/-- What a walk has reported and what it still owes are what it owed at first; or a directory
that lists itself is still to be listed. -/
def Accounts (environment : Environment) (start : S3GlobResult) (literal : Text)
    (content : List Text) (reported : List Text) (walk : PagedWalk S3ListQuery Text Text) : Prop :=
  (∃ directory ∈ walk.pending, Marked environment start literal content directory) ∨
  (reported ++ walk.owes (owedUrls environment.glob start.parsedS3Url content)).Perm
    (owedUrls environment.glob start.parsedS3Url content literal)

theorem Accounts.step (serves : Serves environment bucket content requestsOf)
    (distinct : content.Nodup) {reported : List Text}
    {walk after : PagedWalk S3ListQuery Text Text} {page : Option (Page S3ListQuery Text Text)}
    (within : walk.Within (Reached environment start literal content))
    (accounts : Accounts environment start literal content reported walk)
    (steps : PagedWalk.Step (visit environment start.parsedS3Url requestsOf) walk page after) :
    Accounts environment start literal content (reported ++ page.toList.flatMap Page.items)
      after := by
  by_cases marked : ∃ directory ∈ walk.pending, Marked environment start literal content directory
  · left
    apply steps.exists_pending_of_recurs _ marked
    intro directory isMarked
    exact ⟨directory, isMarked.toReached.recurs serves isMarked.matching isMarked.question, isMarked⟩
  · right
    have pays : walk.Within (PagedWalk.Pays (visit environment start.parsedS3Url requestsOf)
        (owedUrls environment.glob start.parsedS3Url content)) := by
      intro directory isPending
      have reached := within directory isPending
      apply serves.pays distinct reached.slash
      intro matching question
      exact marked ⟨directory, isPending, reached, matching, question⟩
    rw [List.append_assoc]
    exact ((steps.owes pays).symm.append_left reported).trans (accounts.resolve_left marked)

/-- A finished walk has reported what was owed. -/
theorem OnTour.reported {result : S3GlobResult} {walk : PagedWalk S3ListQuery Text Text}
    (onTour : OnTour environment start bucket literal content mode requestsOf result walk)
    (accounts : Accounts environment start literal content result.expandedFiles walk)
    (finished : result.finished = true) :
    result.expandedFiles.Perm (owedUrls environment.glob start.parsedS3Url content literal) := by
  obtain rfl := onTour.finished_inv finished
  rcases accounts with ⟨directory, isPending, -⟩ | permuted
  · contradiction
  · exact List.append_nil result.expandedFiles ▸ permuted

theorem OnTour.exact (located : Located start bucket literal)
    (serves : Serves environment bucket content requestsOf) (distinct : content.Nodup)
    (kept : listsByDirectory environment start = true →
      KeepsNames environment start.parsedS3Url content bucket literal)
    {calls : Nat} {result : S3GlobResult} {walk : PagedWalk S3ListQuery Text Text}
    {outcome : Except ErrorData S3GlobResult}
    (onTour : OnTour environment start bucket literal content mode requestsOf result walk)
    (accounts : Accounts environment start literal content result.expandedFiles walk)
    (ends : expandAll environment calls result = some outcome) :
    ∃ last, outcome = .ok last ∧ last.expandedFiles.Perm
      (owedUrls environment.glob start.parsedS3Url content literal) := by
  induction calls generalizing result walk with
  | zero =>
      rw [expandAll] at ends
      split at ends
      · rename_i finished
        cases ends
        exact ⟨result, rfl, onTour.reported accounts finished⟩
      · contradiction
  | succ calls inductionHypothesis =>
      rw [expandAll] at ends
      split at ends
      · rename_i finished
        cases ends
        exact ⟨result, rfl, onTour.reported accounts finished⟩
      · rename_i unfinished
        obtain ⟨next, page, after, reads, steps, stays⟩ :=
          onTour.step located serves kept (Bool.not_eq_true _ ▸ unfinished)
        rw [reads.expands] at ends
        have goesOn := accounts.step serves distinct onTour.within steps
        rw [← reads.reports] at goesOn
        exact inductionHypothesis stays goesOn ends

/-! ## Whole walks -/

/-- A walk that has made its first call has read where the top level is listed. -/
theorem exists_listed (fresh : Fresh start) {next : S3GlobResult}
    (expands : expandNextPath environment start = .ok next) :
    ∃ listed, parse start.sharedPath start.authParams = .ok listed := by
  rw [expandNextPath, if_neg (by simp [fresh.unfinished]), if_neg (by simp [fresh.current])]
    at expands
  obtain ⟨scanned, scans, -⟩ := bind_eq_ok_iff.mp expands
  rw [scanTopLevel, if_neg (by simp [fresh.stack])] at scans
  obtain ⟨response, requests, -⟩ := bind_eq_ok_iff.mp scans
  obtain ⟨listed, parses, -⟩ := bind_eq_ok_iff.mp requests
  exact ⟨listed, parses⟩

theorem openGlob_fresh {globPattern : Text} {authParams : S3AuthParams} {walk : S3GlobResult}
    (opens : openGlob environment globPattern authParams = .ok walk)
    (unfinished : walk.finished = false) (globType : GlobType) : Fresh { walk with globType } := by
  rcases openGlob_cases opens with ⟨finished, -⟩ | ⟨-, mode⟩
  · rw [unfinished] at finished
    contradiction
  · obtain ⟨-, -, walkEq⟩ := openGlob_eq_ok mode opens unfinished
    exact ⟨unfinished, congrArg S3GlobResult.mainContinuationToken walkEq,
      congrArg S3GlobResult.currentCommonPrefix walkEq,
      congrArg S3GlobResult.commonPrefixContinuationToken walkEq,
      congrArg S3GlobResult.commonPrefixes walkEq, congrArg S3GlobResult.expandedFiles walkEq⟩

theorem openGlob_located {globPattern : Text} {authParams : S3AuthParams} {walk : S3GlobResult}
    {reserved : Text → Bool} {aliases : List Text}
    (routed : (tryMatchUrlOrAlias globPattern
      (getSchemeAliasPrefixes reserved aliases)).isSome = true)
    (opens : openGlob environment globPattern authParams = .ok walk)
    (unfinished : walk.finished = false) (globType : GlobType)
    (parses : ∃ listed, parse walk.sharedPath walk.authParams = .ok listed) :
    Located { walk with globType } walk.parsedS3Url.bucket
      (literalPart walk.parsedS3Url.key) := by
  rcases openGlob_cases opens with ⟨finished, -⟩ | ⟨-, mode⟩
  · rw [unfinished] at finished
    contradiction
  · obtain ⟨listed, parses⟩ := parses
    obtain ⟨scheme, bucket, tail, opened⟩ :=
      exists_opened (exists_scheme_of_routed routed) mode opens unfinished parses
    exact opened.located (sharedPath_noQuestion mode opens unfinished) globType

theorem Fresh.exists_next (fresh : Fresh start) {calls : Nat} {last : S3GlobResult}
    (ends : expandAll environment calls start = some (.ok last)) :
    ∃ others next, expandNextPath environment start = .ok next ∧
      expandAll environment others next = some (.ok last) := by
  have unfinished : ¬ start.finished = true := by simp [fresh.unfinished]
  cases calls with
  | zero =>
      rw [expandAll, if_neg unfinished] at ends
      contradiction
  | succ calls =>
      rw [expandAll, if_neg unfinished] at ends
      cases expands : expandNextPath environment start with
      | error error =>
          rw [expands] at ends
          cases ends
      | ok next =>
          rw [expands] at ends
          exact ⟨calls, next, rfl, ends⟩

theorem Fresh.exact (fresh : Fresh start)
    (locates : (∃ listed, parse start.sharedPath start.authParams = .ok listed) →
      Located start bucket literal)
    (lists : ListsBucket environment bucket content)
    (kept : listsByDirectory environment start = true →
      KeepsNames environment start.parsedS3Url content bucket literal)
    {calls : Nat} {last : S3GlobResult}
    (ends : expandAll environment calls start = some (.ok last)) :
    last.expandedFiles.Perm (owedUrls environment.glob start.parsedS3Url content literal) := by
  obtain ⟨others, second, expands, ends⟩ := fresh.exists_next ends
  have located := locates (exists_listed fresh expands)
  obtain ⟨requestsOf, serves⟩ := lists.byDirectory.exists_serves
  obtain ⟨mode, query, rest, wasted, next, first⟩ :=
    exists_firstCall located fresh serves lists.flat
  obtain rfl : second = next := Except.ok.inj (expands.symm.trans first.expands)
  obtain ⟨after, steps, within, onTour⟩ := first.onTour located serves
  have owed := @TopLevel.owes _ _ _ _ _ _ serves lists.distinct _ start.parsedS3Url first.topLevel
  have begins : Accounts environment start literal content []
      ⟨(query :: rest).map (servedPage environment start.parsedS3Url), none, []⟩ := .inr owed
  have accounts := begins.step serves lists.distinct within steps
  rw [List.nil_append, Option.toList_some, List.flatMap_singleton, ← first.reports] at accounts
  obtain ⟨reached, isLast, permuted⟩ :=
    onTour.exact located serves lists.distinct kept accounts ends
  cases isLast
  exact permuted

/-- A walk that ends has reported the keys that match its pattern, each of them once, whether
it lists flat or by directory and whether it changes over or not. -/
theorem walk_exact {globPattern : Text} {authParams : S3AuthParams} {walk last : S3GlobResult}
    {reserved : Text → Bool} {aliases : List Text}
    (routed : (tryMatchUrlOrAlias globPattern
      (getSchemeAliasPrefixes reserved aliases)).isSome = true)
    (opens : openGlob environment globPattern authParams = .ok walk)
    (unfinished : walk.finished = false) (globType : GlobType)
    (lists : ListsBucket environment walk.parsedS3Url.bucket content)
    (kept : listsByDirectory environment { walk with globType } = true →
      KeepsNames environment walk.parsedS3Url content walk.parsedS3Url.bucket
        (literalPart walk.parsedS3Url.key))
    {calls : Nat} (ends : expandAll environment calls { walk with globType } = some (.ok last)) :
    last.expandedFiles.Perm (reportedUrls environment.glob walk.parsedS3Url
      (content.filter fun key => (literalPart walk.parsedS3Url.key).isPrefixOf key)) := by
  have fresh := openGlob_fresh opens unfinished globType
  exact fresh.exact (openGlob_located routed opens unfinished globType) lists kept ends

/-- The walk over `s3://b/d/*/x` by directory reports the keys `d/e/x` and `d/f g/x`, each
listing in two pages. -/
theorem walk_exact_twoPages :
    ∃ last, expandAll (twoPageBucket ["d/e/x".toList, "d/f g/x".toList, "d/x".toList] 0) 6
        { starWalk with globType := .hierarchical } = some (.ok last) ∧
      last.expandedFiles.Perm ["s3://b/d/e/x".toList, "s3://b/d/f g/x".toList] := by
  obtain ⟨last, ends⟩ : ∃ last, expandAll
      (twoPageBucket ["d/e/x".toList, "d/f g/x".toList, "d/x".toList] 0) 6
      { starWalk with globType := .hierarchical } = some (.ok last) := ⟨_, rfl⟩
  refine ⟨last, ends, ?_⟩
  exact walk_exact starWalk_routed openGlob_starWalk rfl .hierarchical
    (twoPageBucket_listsBucket _ (by decide)) (fun _ => starWalk_keepsNames (by decide)) ends

end Httpfs.S3.Glob
