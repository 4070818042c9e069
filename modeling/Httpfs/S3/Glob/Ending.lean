import Httpfs.S3.Glob.Exact

/-!
# Walks that end

The request for a directory with a question mark in its name asks for the directory above
it, which has that directory again.  A walk by directory ends if and only if it comes to no
such directory, and then it sends no request twice.
-/

namespace Httpfs.S3.Glob

open Text S3GlobMatchMode Transition

variable {environment : Environment} {start : S3GlobResult} {bucket literal : Text}
variable {mode : S3ListMode} {requestsOf : Text → List S3ListQuery} {content : List Text}

/-! ## The way to a marked directory -/

/-- A directory whose question marks are all in its last segment. -/
structure LastMarked (content : List Text) (literal marked : Text) : Prop
    extends IsDirectory content literal marked where
  split : ∃ front segment, marked = front ++ '?' :: segment ++ ['/'] ∧ '?' ∉ front ∧
    '/' ∉ segment

/-- Above a directory with a question mark is one that has them in its last segment. -/
theorem IsDirectory.exists_lastMarked {directory : Text}
    (isDirectory : IsDirectory content literal directory) (noQuestion : '?' ∉ literal)
    (question : '?' ∈ directory) :
    ∃ marked, LastMarked content literal marked ∧ marked <+: directory := by
  obtain ⟨front, back, rfl, free⟩ := List.eq_append_cons_of_mem question
  have slash : '/' ∈ back := by
    have last := isDirectory.slash
    cases back with
    | nil => simp at last
    | cons first back =>
        rw [List.getLast?_append_of_ne_nil _ (List.cons_ne_nil _ _), List.getLast?_cons_cons] at last
        exact List.mem_of_getLast? last
  obtain ⟨segment, rest, rfl, noSlash⟩ := List.eq_append_cons_of_mem slash
  have upTo : front ++ '?' :: segment ++ ['/'] <+: front ++ '?' :: (segment ++ '/' :: rest) :=
    ⟨rest, by simp⟩
  have starts : literal <+: front := by
    have asked := (isDirectory.askedPrefix noQuestion).2
    have nonempty : (segment ++ '/' :: rest).isEmpty = false := by simp
    rw [Glob.askedPrefix, splitRest_append free, nonempty] at asked
    exact asked
  refine ⟨front ++ '?' :: segment ++ ['/'], ⟨?_, ?_⟩, upTo⟩
  · obtain ⟨key, inContent, below⟩ := isDirectory.inhabited
    refine ⟨?_, ?_, List.getLast?_concat, key, inContent, upTo.trans below⟩
    · rw [List.append_assoc]
      exact starts.trans (List.prefix_append _ _)
    · have length := starts.length_le
      simp only [List.length_append, List.length_cons]
      omega
  · exact ⟨front, segment, rfl, free, noSlash⟩

theorem askedPrefix_isPrefix {directory : Text} (slash : directory.getLast? = some '/') :
    askedPrefix directory <+: directory := by
  by_cases question : '?' ∈ directory
  · obtain ⟨front, back, rfl, -, asked⟩ := exists_askedPrefix slash question
    rw [asked]
    exact List.prefix_append _ _
  · have whole := askedPrefix_of_not_mem question
    exact ⟨[], (List.append_nil _).trans whole⟩

/-- A listing above a marked directory has the next directory on the way to it. -/
theorem LastMarked.exists_child {marked keyPrefix : Text}
    (lastMarked : LastMarked content literal marked) (free : '?' ∉ keyPrefix)
    (above : keyPrefix <+: marked) :
    ∃ child ∈ children content keyPrefix, child <+: marked ∧ ('?' ∈ child → child = marked) := by
  obtain ⟨front, segment, isMarked, frontFree, noSlash⟩ := lastMarked.split
  obtain ⟨key, inContent, below⟩ := lastMarked.inhabited
  have starts : keyPrefix <+: front := by
    have cut : front ++ ['?'] <+: marked := by
      rw [isMarked]
      exact ⟨segment ++ ['/'], by simp⟩
    rcases List.prefix_or_prefix_of_prefix above cut with starts | covers
    · rcases List.prefix_concat_iff.mp starts with same | starts
      · exact absurd (same ▸ List.mem_append_right front (List.mem_singleton_self '?')) free
      · exact starts
    · exact absurd (covers.subset (List.mem_append_right front (List.mem_singleton_self '?'))) free
  obtain ⟨middle, rfl⟩ := starts
  by_cases slash : '/' ∈ middle
  · obtain ⟨first, others, rfl, firstFree⟩ := List.eq_append_cons_of_mem slash
    have onTheWay : keyPrefix ++ first ++ ['/'] <+: keyPrefix ++ (first ++ '/' :: others) :=
      ⟨others, by simp⟩
    have upTo : keyPrefix ++ first ++ ['/'] <+: marked := by
      rw [isMarked]
      exact onTheWay.trans ⟨'?' :: segment ++ ['/'], by simp⟩
    refine ⟨keyPrefix ++ first ++ ['/'], mem_children.mpr ⟨⟨first, firstFree, rfl⟩, key,
      inContent, upTo.trans below⟩, upTo, ?_⟩
    intro question
    exact absurd (onTheWay.subset question) frontFree
  · refine ⟨marked, mem_children.mpr ⟨⟨middle ++ '?' :: segment, ?_, ?_⟩, key, inContent, below⟩,
      List.prefix_rfl, fun _ => rfl⟩
    · rw [List.mem_append, List.mem_cons, not_or, not_or]
      exact ⟨slash, by decide, noSlash⟩
    · rw [isMarked]
      simp

/-- The directories on the way to a marked one, and that one. -/
structure Towards (content : List Text) (literal marked directory : Text) : Prop
    extends IsDirectory content literal directory where
  below : directory <+: marked
  whole : '?' ∈ directory → directory = marked

theorem LastMarked.exists_towards {marked keyPrefix : Text}
    (lastMarked : LastMarked content literal marked) (free : '?' ∉ keyPrefix)
    (starts : literal <+: keyPrefix) (above : keyPrefix <+: marked) :
    ∃ child ∈ children content keyPrefix, Towards content literal marked child := by
  obtain ⟨child, isChild, below, whole⟩ := lastMarked.exists_child free above
  exact ⟨child, isChild, isDirectory_of_mem_children starts isChild, below, whole⟩

/-- The listing of a directory on the way to a marked one goes on towards it. -/
theorem Towards.recurs (serves : Serves environment bucket content requestsOf)
    (noQuestion : '?' ∉ literal) {marked directory : Text}
    (lastMarked : LastMarked content literal marked)
    (matching : mayMatch environment.glob start.parsedS3Url marked = true)
    (towards : Towards content literal marked directory) :
    ∃ child ∈ (visit environment start.parsedS3Url requestsOf directory).flatMap Page.nodes,
      Towards content literal marked child := by
  have matches' : mayMatch environment.glob start.parsedS3Url directory = true := by
    obtain ⟨rest, isMarked⟩ := towards.below
    rw [mayMatch, ← isMarked, segments_append_of_directory towards.slash] at matching
    exact matchSegments_prefixMode_of_append matching
  obtain ⟨free, starts⟩ := towards.toIsDirectory.askedPrefix noQuestion
  obtain ⟨child, isChild, goesOn⟩ := lastMarked.exists_towards free starts
    ((askedPrefix_isPrefix towards.slash).trans towards.below)
  refine ⟨child, ?_, goesOn⟩
  rw [visit, if_pos matches', List.flatMap_map]
  exact (serves.directories _).mem_iff.mpr isChild

/-! ## Walks without an end -/

theorem OnTour.endless (located : Located start bucket literal)
    (serves : Serves environment bucket content requestsOf)
    (kept : listsByDirectory environment start = true →
      KeepsNames environment start.parsedS3Url content bucket literal)
    {marked : Text} (lastMarked : LastMarked content literal marked)
    (matching : mayMatch environment.glob start.parsedS3Url marked = true)
    {calls : Nat} {result : S3GlobResult} {walk : PagedWalk S3ListQuery Text Text}
    (onTour : OnTour environment start bucket literal content mode requestsOf result walk)
    (leads : ∃ directory ∈ walk.pending, Towards content literal marked directory) :
    expandAll environment calls result = none := by
  have unfinished : ∀ {result walk},
      OnTour environment start bucket literal content mode requestsOf result walk →
      (∃ directory ∈ walk.pending, Towards content literal marked directory) →
      result.finished = false := by
    rintro result walk onTour ⟨directory, isPending, -⟩
    rw [Bool.eq_false_iff]
    intro finished
    obtain rfl := onTour.finished_inv finished
    contradiction
  induction calls generalizing result walk with
  | zero => rw [expandAll, if_neg (by simp [unfinished onTour leads])]
  | succ calls inductionHypothesis =>
      obtain ⟨next, page, after, reads, steps, stays⟩ :=
        onTour.step located serves kept (unfinished onTour leads)
      rw [expandAll, if_neg (by simp [unfinished onTour leads]), reads.expands]
      exact inductionHypothesis stays (steps.exists_pending_of_recurs
        (fun directory towards => towards.recurs serves located.noQuestion lastMarked matching)
        leads)

/-- A walk that comes to a directory with a question mark below which its pattern may match
never ends. -/
theorem Fresh.endless (fresh : Fresh start) (located : Located start bucket literal)
    (lists : ListsBucket environment bucket content)
    (byDirectory : listsByDirectory environment start = true)
    (kept : KeepsNames environment start.parsedS3Url content bucket literal)
    {directory : Text} (isDirectory : IsDirectory content literal directory)
    (matching : mayMatch environment.glob start.parsedS3Url directory = true)
    (question : '?' ∈ directory) (calls : Nat) : expandAll environment calls start = none := by
  obtain ⟨marked, lastMarked, ⟨rest, isMarked⟩⟩ :=
    isDirectory.exists_lastMarked located.noQuestion question
  have matches' : mayMatch environment.glob start.parsedS3Url marked = true := by
    rw [mayMatch, ← isMarked, segments_append_of_directory lastMarked.slash] at matching
    exact matchSegments_prefixMode_of_append matching
  obtain ⟨requestsOf, serves⟩ := lists.byDirectory.exists_serves
  obtain ⟨mode, query, queries, wasted, next, first⟩ :=
    exists_firstCall located fresh serves lists.flat
  obtain ⟨after, steps, within, onTour⟩ := first.onTour located serves
  have leads : ∃ directory ∈ PagedWalk.pending
      ⟨(query :: queries).map (servedPage environment start.parsedS3Url), none, []⟩,
        Towards content literal marked directory := by
    obtain ⟨child, isChild, towards⟩ := lastMarked.exists_towards located.noQuestion
      List.prefix_rfl lastMarked.starts
    refine ⟨child, ?_, towards⟩
    rw [first.topLevel.byDirectory (first.byDirectory.mpr byDirectory), PagedWalk.pending,
      List.nil_append]
    change child ∈ (List.map _ _).flatMap Page.nodes
    rw [List.flatMap_map]
    exact (serves.directories literal).mem_iff.mpr isChild
  have goesOn := steps.exists_pending_of_recurs (fun directory towards =>
    towards.recurs serves located.noQuestion lastMarked matches') leads
  cases calls with
  | zero => rw [expandAll, if_neg (by simp [fresh.unfinished])]
  | succ calls =>
      rw [expandAll, if_neg (by simp [fresh.unfinished]), first.expands]
      exact onTour.endless located serves (fun _ => kept) lastMarked matches' goesOn

/-! ## Walks that end -/

/-- No directory a walk comes to has a question mark, where it lists by directory. -/
def Unmarked (environment : Environment) (start : S3GlobResult) (content : List Text)
    (literal : Text) : Prop :=
  listsByDirectory environment start = true →
    NoQuestionMark environment.glob start.parsedS3Url content literal

theorem OnTour.ends (located : Located start bucket literal)
    (serves : Serves environment bucket content requestsOf) (distinct : content.Nodup)
    (kept : listsByDirectory environment start = true →
      KeepsNames environment start.parsedS3Url content bucket literal)
    (unmarked : Unmarked environment start content literal) {result : S3GlobResult}
    {walk : PagedWalk S3ListQuery Text Text}
    (onTour : OnTour environment start bucket literal content mode requestsOf result walk) :
    ∃ calls last, expandAll environment calls result = some (.ok last) := by
  have lightens : ∀ directory, Reached environment start literal content directory →
      PagedWalk.Lightens (visit environment start.parsedS3Url requestsOf) (weight content)
        directory :=
    fun directory reached => serves.lightens distinct reached.toIsDirectory
      (unmarked reached.byDirectory directory reached.toIsDirectory)
  have accessible := PagedWalk.acc_step (Reached.closed serves located.noQuestion) lightens
    onTour.within
  induction accessible generalizing result with
  | intro walk _ inductionHypothesis =>
      by_cases finished : result.finished = true
      · exact ⟨0, result, expandAll_of_finished finished 0⟩
      · obtain ⟨next, page, after, reads, steps, stays⟩ :=
          onTour.step located serves kept (Bool.not_eq_true _ ▸ finished)
        obtain ⟨calls, last, ends⟩ := inductionHypothesis after ⟨page, steps⟩ stays
        refine ⟨calls + 1, last, ?_⟩
        rw [expandAll, if_neg finished, reads.expands]
        exact ends

theorem Fresh.ends_iff (fresh : Fresh start) (located : Located start bucket literal)
    (lists : ListsBucket environment bucket content)
    (kept : listsByDirectory environment start = true →
      KeepsNames environment start.parsedS3Url content bucket literal) :
    (∃ calls last, expandAll environment calls start = some (.ok last)) ↔
      Unmarked environment start content literal := by
  constructor
  · rintro ⟨calls, last, ends⟩ byDirectory directory isDirectory matching question
    rw [fresh.endless located lists byDirectory (kept byDirectory) isDirectory matching question]
      at ends
    contradiction
  · intro unmarked
    obtain ⟨requestsOf, serves⟩ := lists.byDirectory.exists_serves
    obtain ⟨mode, query, rest, wasted, next, first⟩ :=
      exists_firstCall located fresh serves lists.flat
    obtain ⟨after, steps, within, onTour⟩ := first.onTour located serves
    obtain ⟨calls, last, ends⟩ := onTour.ends located serves lists.distinct kept unmarked
    refine ⟨calls + 1, last, ?_⟩
    rw [expandAll, if_neg (by simp [fresh.unfinished]), first.expands]
    exact ends

/-- Where it can be read what to list, a walk ends if and only if it lists flat or comes to no
directory with a question mark below which its pattern may match. -/
theorem walk_ends_iff {globPattern : Text} {authParams : S3AuthParams} {walk : S3GlobResult}
    {reserved : Text → Bool} {aliases : List Text}
    (routed : (tryMatchUrlOrAlias globPattern
      (getSchemeAliasPrefixes reserved aliases)).isSome = true)
    (opens : openGlob environment globPattern authParams = .ok walk)
    (unfinished : walk.finished = false) (globType : GlobType)
    (reads : ∃ listed, parse walk.sharedPath walk.authParams = .ok listed)
    (lists : ListsBucket environment walk.parsedS3Url.bucket content)
    (kept : listsByDirectory environment { walk with globType } = true →
      KeepsNames environment walk.parsedS3Url content walk.parsedS3Url.bucket
        (literalPart walk.parsedS3Url.key)) :
    (∃ calls last, expandAll environment calls { walk with globType } = some (.ok last)) ↔
      (listsByDirectory environment { walk with globType } = true →
        NoQuestionMark environment.glob walk.parsedS3Url content
          (literalPart walk.parsedS3Url.key)) := by
  have fresh := openGlob_fresh opens unfinished globType
  exact fresh.ends_iff (openGlob_located routed opens unfinished globType reads) lists kept

/-- The walk over `s3://b/d/*/x` by directory never ends where there is a key `d/x?y/x`. -/
theorem walk_ends_iff_questionMark :
    ¬ ∃ calls last, expandAll (twoPageBucket ["d/x?y/x".toList] 0) calls
      { starWalk with globType := .hierarchical } = some (.ok last) := by
  intro ends
  have plain := (walk_ends_iff starWalk_routed openGlob_starWalk rfl .hierarchical ⟨_, rfl⟩
    (twoPageBucket_listsBucket _ (by decide)) (fun _ => starWalk_keepsNames (by decide))).mp ends
    rfl
  have isDirectory : IsDirectory ["d/x?y/x".toList] "d/".toList "d/x?y/".toList :=
    isDirectory_of_mem_children List.prefix_rfl (by decide)
  exact plain "d/x?y/".toList isDirectory (by decide) (by decide)

end Httpfs.S3.Glob
