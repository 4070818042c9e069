import Httpfs.S3.Glob.Directories

/-!
# The tour of a bucket

A walk by directory goes through the directories of a bucket below which its pattern may
match.  The request for a directory is read from a URL, so a question mark in its name
cuts it off.
-/

namespace Httpfs.S3.Glob

open Text S3GlobMatchMode Transition

variable {environment : Environment} {parsedS3Url : ParsedS3Url} {bucket literal : Text}
variable {content : List Text}

/-! ## Visits -/

/-- The page that answers a request, with the URLs a walk reports of it. -/
def servedPage (environment : Environment) (parsedS3Url : ParsedS3Url) (query : S3ListQuery) :
    Page S3ListQuery Text Text where
  request := query
  items := reportedUrls environment.glob parsedS3Url (listedKeys environment query)
  nodes := listedDirectories environment query

/-- Whether the pattern may match below a directory. -/
def mayMatch (glob : Text → Text → Bool) (parsedS3Url : ParsedS3Url) (directory : Text) : Bool :=
  matchSegments glob prefixMode (segments parsedS3Url.key) (segments directory)

/-- The prefix that is asked for where a URL names a directory. -/
def askedPrefix (directory : Text) : Text :=
  (splitRest directory).2.2

/-- The pages a walk reads of a directory. -/
def visit (environment : Environment) (parsedS3Url : ParsedS3Url)
    (requestsOf : Text → List S3ListQuery) (directory : Text) :
    List (Page S3ListQuery Text Text) :=
  if mayMatch environment.glob parsedS3Url directory then
    (requestsOf (askedPrefix directory)).map (servedPage environment parsedS3Url)
  else []

/-- The requests by which a bucket is listed by directory. -/
structure Serves (environment : Environment) (bucket : Text) (content : List Text)
    (requestsOf : Text → List S3ListQuery) : Prop where
  listing : ∀ keyPrefix, Listing environment bucket keyPrefix .hierarchical []
    (requestsOf keyPrefix)
  keys : ∀ keyPrefix, ((requestsOf keyPrefix).flatMap (listedKeys environment)).Perm
    ((keysBelow content keyPrefix).filter fun key => (commonPrefix keyPrefix key).isNone)
  directories : ∀ keyPrefix,
    ((requestsOf keyPrefix).flatMap (listedDirectories environment)).Perm
      (children content keyPrefix)
  named : ∀ keyPrefix, ∀ query ∈ requestsOf keyPrefix,
    ∀ name ∈ (environment.service query).commonPrefixes, name ≠ []

theorem ListsByDirectory.exists_serves (lists : ListsByDirectory environment bucket content) :
    ∃ requestsOf, Serves environment bucket content requestsOf := by
  choose requestsOf listing keys directories named using lists
  exact ⟨requestsOf, listing, keys, directories, named⟩

/-- A directory with a key of the bucket, below what every key of a pattern starts with. -/
structure IsDirectory (content : List Text) (literal directory : Text) : Prop where
  starts : literal <+: directory
  longer : literal.length < directory.length
  slash : directory.getLast? = some '/'
  inhabited : ∃ key ∈ content, directory <+: key

theorem isDirectory_of_mem_children {keyPrefix directory : Text} (starts : literal <+: keyPrefix)
    (isChild : directory ∈ children content keyPrefix) : IsDirectory content literal directory := by
  obtain ⟨⟨segment, -, rfl⟩, inhabited⟩ := mem_children.mp isChild
  have below : keyPrefix <+: keyPrefix ++ segment ++ ['/'] := by
    rw [List.append_assoc]
    exact List.prefix_append _ _
  refine ⟨starts.trans below, ?_, List.getLast?_concat, inhabited⟩
  have length := starts.length_le
  simp only [List.length_append, List.length_singleton]
  omega

theorem askedPrefix_of_not_mem {directory : Text} (free : '?' ∉ directory) :
    askedPrefix directory = directory := by
  rw [askedPrefix, splitRest_of_not_mem free]

/-- A directory with a question mark is cut off before it. -/
theorem exists_askedPrefix {directory : Text} (slash : directory.getLast? = some '/')
    (question : '?' ∈ directory) :
    ∃ front back, directory = front ++ '?' :: back ∧ '?' ∉ front ∧
      askedPrefix directory = front := by
  obtain ⟨front, back, rfl, free⟩ := List.eq_append_cons_of_mem question
  refine ⟨front, back, rfl, free, ?_⟩
  rw [askedPrefix, splitRest_append free]
  cases back with
  | nil => simp at slash
  | cons first back => rfl

/-- What is asked for has no question mark and still starts with the literal part. -/
theorem IsDirectory.askedPrefix {directory : Text} (isDirectory : IsDirectory content literal directory)
    (noQuestion : '?' ∉ literal) :
    '?' ∉ Glob.askedPrefix directory ∧ literal <+: Glob.askedPrefix directory := by
  by_cases question : '?' ∈ directory
  · obtain ⟨front, back, eq, free, asked⟩ := exists_askedPrefix isDirectory.slash question
    rw [asked]
    refine ⟨free, ?_⟩
    have cut : front ++ ['?'] <+: directory := by
      rw [eq]
      exact ⟨back, by simp⟩
    have noMark : ∀ text : Text, text <+: literal → '?' ∉ text :=
      fun text isFront member => noQuestion (isFront.subset member)
    rcases List.prefix_or_prefix_of_prefix isDirectory.starts cut with starts | marked
    · rcases List.prefix_concat_iff.mp starts with same | starts
      · exact absurd (same ▸ List.mem_append_right front (List.mem_singleton_self '?')) noQuestion
      · exact starts
    · exact absurd (List.mem_append_right front (List.mem_singleton_self '?')) (noMark _ marked)
  · rw [askedPrefix_of_not_mem question]
    exact ⟨question, isDirectory.starts⟩

/-- A directory that a listing without question marks in its prefix has is listed again
where its own name has one. -/
theorem mem_children_askedPrefix {keyPrefix directory : Text} (free : '?' ∉ keyPrefix)
    (isChild : directory ∈ children content keyPrefix) (question : '?' ∈ directory) :
    directory ∈ children content (askedPrefix directory) := by
  obtain ⟨⟨segment, noSlash, eq⟩, inhabited⟩ := mem_children.mp isChild
  have inSegment : '?' ∈ segment := by
    rw [eq, List.append_assoc] at question
    rcases List.mem_append.mp question with inFront | inRest
    · exact absurd inFront free
    · rcases List.mem_append.mp inRest with inSegment | inSlash
      · exact inSegment
      · exact absurd inSlash (by decide)
  obtain ⟨front, back, rfl, frontFree⟩ := List.eq_append_cons_of_mem inSegment
  have whole : directory = keyPrefix ++ front ++ '?' :: (back ++ ['/']) := by
    rw [eq]
    simp
  have asked : askedPrefix directory = keyPrefix ++ front := by
    have prefixFree : '?' ∉ keyPrefix ++ front := by
      rw [List.mem_append, not_or]
      exact ⟨free, frontFree⟩
    rw [whole, askedPrefix, splitRest_append prefixFree]
    cases back with
    | nil => rfl
    | cons first back => rfl
  rw [asked]
  refine mem_children.mpr ⟨⟨'?' :: back, ?_, ?_⟩, inhabited⟩
  · exact fun slash => noSlash (List.mem_append_right front slash)
  · rw [eq]
    simp

/-! ## What is owed -/

/-- The URLs a walk owes of the keys below a directory. -/
def owedUrls (glob : Text → Text → Bool) (parsedS3Url : ParsedS3Url) (content : List Text)
    (directory : Text) : List Text :=
  reportedUrls glob parsedS3Url (keysBelow content directory)

theorem reportedUrls_flatMap {β : Type} (glob : Text → Text → Bool) (parsedS3Url : ParsedS3Url)
    (list : List β) (keysOf : β → List Text) :
    reportedUrls glob parsedS3Url (list.flatMap keysOf) =
      list.flatMap fun element => reportedUrls glob parsedS3Url (keysOf element) := by
  induction list with
  | nil => rfl
  | cons first rest inductionHypothesis =>
      rw [List.flatMap_cons, reportedUrls_append, inductionHypothesis, List.flatMap_cons]

/-- Nothing is owed for a directory below which the pattern does not match. -/
theorem owedUrls_of_not_mayMatch {directory : Text} (slash : directory.getLast? = some '/')
    (skips : mayMatch environment.glob parsedS3Url directory = false) :
    owedUrls environment.glob parsedS3Url content directory = [] := by
  rw [owedUrls, reportedUrls, List.map_eq_nil_iff, List.filter_eq_nil_iff]
  intro key member accepted
  obtain ⟨-, rest, rfl⟩ := mem_keysBelow.mp (List.mem_filter.mp member).1
  rw [accepts, segments_append_of_directory slash] at accepted
  have goesOn := matchSegments_prefixMode_of_append accepted
  rw [mayMatch, goesOn] at skips
  contradiction

variable {requestsOf : Text → List S3ListQuery}

/-- The pages of a listing have what is owed for the keys that start with its prefix. -/
theorem Serves.pages_owe (serves : Serves environment bucket content requestsOf)
    (distinct : content.Nodup) (keyPrefix : Text) :
    (owedUrls environment.glob parsedS3Url content keyPrefix).Perm
      (((requestsOf keyPrefix).map (servedPage environment parsedS3Url)).flatMap
        (PagedWalk.pageOwes (owedUrls environment.glob parsedS3Url content))) := by
  have items : ((requestsOf keyPrefix).flatMap fun query =>
      reportedUrls environment.glob parsedS3Url (listedKeys environment query)).Perm
        (reportedUrls environment.glob parsedS3Url
          ((keysBelow content keyPrefix).filter fun key => (commonPrefix keyPrefix key).isNone)) := by
    rw [← reportedUrls_flatMap]
    exact reportedUrls_perm (serves.keys keyPrefix)
  have nodes : ((requestsOf keyPrefix).flatMap fun query => (listedDirectories environment
      query).flatMap (owedUrls environment.glob parsedS3Url content)).Perm
        (reportedUrls environment.glob parsedS3Url
          ((children content keyPrefix).flatMap (keysBelow content))) := by
    rw [← List.flatMap_assoc, reportedUrls_flatMap]
    exact (serves.directories keyPrefix).flatMap_right _
  have split : (owedUrls environment.glob parsedS3Url content keyPrefix).Perm _ :=
    reportedUrls_perm (keysBelow_perm distinct keyPrefix)
  rw [reportedUrls_append] at split
  rw [List.flatMap_map]
  exact (split.trans (items.symm.append nodes.symm)).trans (List.flatMap_append_perm _ _ _)

theorem Serves.pays (serves : Serves environment bucket content requestsOf)
    (distinct : content.Nodup) {directory : Text} (slash : directory.getLast? = some '/')
    (noQuestion : mayMatch environment.glob parsedS3Url directory = true → '?' ∉ directory) :
    PagedWalk.Pays (visit environment parsedS3Url requestsOf)
      (owedUrls environment.glob parsedS3Url content) directory := by
  rw [PagedWalk.Pays, visit]
  split
  · rename_i matching
    rw [askedPrefix_of_not_mem (noQuestion matching)]
    exact serves.pages_owe distinct directory
  · rename_i skips
    rw [owedUrls_of_not_mayMatch slash (Bool.not_eq_true _ ▸ skips)]
    exact List.Perm.refl _

/-! ## Weights -/

/-- How far the keys below a directory go on. -/
def weight (content : List Text) (directory : Text) : Nat :=
  ((keysBelow content directory).map fun key => key.length + 1 - directory.length).sum

theorem length_le_weight (directory : Text) :
    (keysBelow content directory).length ≤ weight content directory := by
  rw [weight, ← List.length_map (fun key : Text => key.length + 1 - directory.length)]
  apply List.length_le_sum_of_one_le
  intro count member
  obtain ⟨key, below, rfl⟩ := List.mem_map.mp member
  have length := (mem_keysBelow.mp below).2.length_le
  omega

/-- The keys below a directory weigh more from further above, each of them at least one. -/
theorem weight_add_length_le {directory above : Text} (longer : above.length < directory.length) :
    weight content directory + (keysBelow content directory).length ≤
      ((keysBelow content directory).map fun key => key.length + 1 - above.length).sum := by
  have each : ∀ keys : List Text, (∀ key ∈ keys, directory.length ≤ key.length) →
      (keys.map fun key => key.length + 1 - directory.length).sum + keys.length ≤
        (keys.map fun key => key.length + 1 - above.length).sum := by
    intro keys bounds
    induction keys with
    | nil => exact Nat.le_refl _
    | cons key keys inductionHypothesis =>
        have first := bounds key List.mem_cons_self
        have rest := inductionHypothesis fun other member =>
          bounds other (List.mem_cons_of_mem key member)
        simp only [List.map_cons, List.sum_cons, List.length_cons]
        omega
  exact each _ fun key member => (mem_keysBelow.mp member).2.length_le

theorem weights_add_length_le {above : Text} {directories : List Text}
    (longer : ∀ directory ∈ directories, above.length < directory.length) :
    (directories.map (weight content)).sum + (directories.flatMap (keysBelow content)).length ≤
      ((directories.flatMap (keysBelow content)).map fun key => key.length + 1 - above.length).sum := by
  induction directories with
  | nil => exact Nat.le_refl _
  | cons directory directories inductionHypothesis =>
      have first := @weight_add_length_le content _ _ (longer directory List.mem_cons_self)
      have rest := inductionHypothesis fun other member =>
        longer other (List.mem_cons_of_mem directory member)
      simp only [List.map_cons, List.sum_cons, List.flatMap_cons, List.length_append,
        List.map_append, List.sum_append]
      omega

theorem children_longer {keyPrefix directory : Text}
    (isChild : directory ∈ children content keyPrefix) : keyPrefix.length < directory.length := by
  obtain ⟨⟨segment, -, rfl⟩, -⟩ := mem_children.mp isChild
  simp only [List.length_append, List.length_singleton]
  omega

/-- The directories right below one weigh less than it. -/
theorem children_lighter (distinct : content.Nodup) {directory : Text}
    (inhabited : keysBelow content directory ≠ []) :
    ((children content directory).map (weight content)).sum < weight content directory := by
  have split := keysBelow_perm distinct directory
  have total := (split.map fun key => key.length + 1 - directory.length).sum_eq
  rw [List.map_append, List.sum_append] at total
  have below := @weights_add_length_le content directory (children content directory)
    fun child isChild => children_longer isChild
  have alone : ((keysBelow content directory).filter fun key =>
      (commonPrefix directory key).isNone).length ≤
        (((keysBelow content directory).filter fun key => (commonPrefix directory key).isNone).map
          fun key => key.length + 1 - directory.length).sum := by
    rw [← List.length_map (fun key : Text => key.length + 1 - directory.length)]
    apply List.length_le_sum_of_one_le
    intro count member
    obtain ⟨key, isKey, rfl⟩ := List.mem_map.mp member
    have length := (mem_keysBelow.mp (List.mem_filter.mp isKey).1).2.length_le
    omega
  have lengths := split.length_eq
  rw [List.length_append] at lengths
  have positive := List.length_pos_iff.mpr inhabited
  rw [weight]
  omega

theorem Serves.lightens (serves : Serves environment bucket content requestsOf)
    (distinct : content.Nodup) {directory : Text}
    (isDirectory : IsDirectory content literal directory)
    (noQuestion : mayMatch environment.glob parsedS3Url directory = true → '?' ∉ directory) :
    PagedWalk.Lightens (visit environment parsedS3Url requestsOf) (weight content) directory := by
  have inhabited : keysBelow content directory ≠ [] := by
    obtain ⟨key, inContent, below⟩ := isDirectory.inhabited
    exact List.ne_nil_of_mem (mem_keysBelow.mpr ⟨inContent, below⟩)
  have lighter := children_lighter distinct inhabited
  rw [PagedWalk.Lightens, visit]
  split
  · rename_i matching
    rw [askedPrefix_of_not_mem (noQuestion matching), List.flatMap_map]
    have same := ((serves.directories directory).map (weight content)).sum_eq
    exact same.trans_lt lighter
  · exact Nat.zero_lt_of_lt lighter

/-! ## Directories that are listed -/

/-- No directory below which the pattern may match has a question mark. -/
def NoQuestionMark (glob : Text → Text → Bool) (parsedS3Url : ParsedS3Url) (content : List Text)
    (literal : Text) : Prop :=
  ∀ directory, IsDirectory content literal directory →
    mayMatch glob parsedS3Url directory = true → '?' ∉ directory

theorem mem_visit {directory : Text} {page : Page S3ListQuery Text Text}
    (member : page ∈ visit environment parsedS3Url requestsOf directory) :
    mayMatch environment.glob parsedS3Url directory = true ∧
      ∃ query ∈ requestsOf (askedPrefix directory),
        servedPage environment parsedS3Url query = page := by
  rw [visit] at member
  split at member
  · rename_i matching
    exact ⟨matching, List.mem_map.mp member⟩
  · contradiction

/-- The directories a walk reads of a directory are right below what is asked for. -/
theorem Serves.mem_visit (serves : Serves environment bucket content requestsOf)
    {directory child : Text}
    (member : child ∈ (visit environment parsedS3Url requestsOf directory).flatMap Page.nodes) :
    mayMatch environment.glob parsedS3Url directory = true ∧
      child ∈ children content (askedPrefix directory) := by
  obtain ⟨page, inVisit, isNode⟩ := List.mem_flatMap.mp member
  obtain ⟨matching, query, isRequest, rfl⟩ := Glob.mem_visit inVisit
  exact ⟨matching, (serves.directories _).mem_iff.mp
    (List.mem_flatMap.mpr ⟨query, isRequest, isNode⟩)⟩

theorem Serves.closed (serves : Serves environment bucket content requestsOf)
    (noQuestion : '?' ∉ literal) :
    PagedWalk.Closed (visit environment parsedS3Url requestsOf)
      (IsDirectory content literal) := by
  intro directory isDirectory child member
  exact isDirectory_of_mem_children (isDirectory.askedPrefix noQuestion).2 (serves.mem_visit member).2

end Httpfs.S3.Glob
