import Httpfs.Http.HuggingFace.Served

/-!
# What a pattern finds

A pattern finds the files that match it below its literal directory, each once, if
every directory there has a path that can stand in a URL as it is, and every link
to a next page is read.
-/

namespace Httpfs.Http.HuggingFace

open File Text UriPath

/-! ## The literal directory -/

/-- The bytes that stand for something else in a pattern. -/
def patternBytes : Text :=
  "*?[\\".toList

/-- The directory that a pattern names before the first of some bytes. -/
def directoryBefore (bytes path : Text) : Text :=
  directoryPart (path.takeWhile (· ∉ bytes))

theorem directoryPart_isPrefix (text : Text) : directoryPart text <+: text := by
  unfold directoryPart
  split
  · exact List.nil_prefix
  · exact List.take_prefix _ _

theorem directoryBefore_isPrefix (bytes path : Text) : directoryBefore bytes path <+: path :=
  (directoryPart_isPrefix _).trans (List.takeWhile_prefix _)

theorem directoryPart_append {front name : Text} (free : '/' ∉ name) :
    directoryPart (front ++ '/' :: name) = front := by
  have reversed : (front ++ '/' :: name).reverse = name.reverse ++ '/' :: front.reverse := by
    simp
  have last : findLastOf '/' (front ++ '/' :: name) = some front.length := by
    rw [findLastOf, reversed, findIdx?_beq_append (by simpa using free), Option.map_some,
      List.length_append, List.length_cons, List.length_reverse]
    congr 1
    omega
  rw [directoryPart, last]
  exact substr_zero_append front _

theorem directoryPart_of_not_mem {text : Text} (free : '/' ∉ text) : directoryPart text = [] := by
  have none : findLastOf '/' text = none := by
    rw [findLastOf, Option.map_eq_none_iff, List.findIdx?_eq_none_iff]
    intro other member
    exact beq_eq_false_iff_ne.mpr fun same => free (same ▸ List.mem_reverse.mp member)
  rw [directoryPart, none]

theorem exists_last_slash {text : Text} (slash : '/' ∈ text) :
    ∃ front name, text = front ++ '/' :: name ∧ '/' ∉ name := by
  rcases List.eq_append_cons_of_mem (List.mem_reverse.mpr slash) with ⟨back, front, cut, free⟩
  refine ⟨front.reverse, back.reverse, ?_, by simpa using free⟩
  rw [← List.reverse_reverse text, cut]
  simp

theorem mem_patternBytes {byte : Char} : byte ∈ patternBytes ↔ byte = '?' ∨ byte ∈ wildcards := by
  simp only [patternBytes, wildcards]
  simp
  tauto

/-- A directory before a larger set of bytes is the same, if the others are not in it. -/
theorem directoryBefore_patternBytes {path : Text} (rooted : ∃ rest, path = '/' :: rest)
    (free : '?' ∉ directoryBefore wildcards path) :
    directoryBefore patternBytes path = directoryBefore wildcards path := by
  rcases rooted with ⟨rest, rfl⟩
  have shorter : ('/' :: rest).takeWhile (· ∉ patternBytes) =
      (('/' :: rest).takeWhile (· ∉ wildcards)).takeWhile (· ≠ '?') := by
    rw [List.takeWhile_takeWhile]
    congr 1
    funext byte
    simp [mem_patternBytes]
  have start : ('/' :: rest).takeWhile (· ∉ wildcards) =
      '/' :: rest.takeWhile (· ∉ wildcards) := List.takeWhile_cons_of_pos (by decide)
  rw [directoryBefore, directoryBefore, shorter]
  rw [directoryBefore] at free
  generalize ('/' :: rest).takeWhile (· ∉ wildcards) = literal at start free
  have slash : '/' ∈ literal := start ▸ List.mem_cons_self
  rcases exists_last_slash slash with ⟨front, name, rfl, noSlash⟩
  rw [directoryPart_append noSlash] at free ⊢
  have shortName : '/' ∉ name.takeWhile (· ≠ '?') :=
    fun member => noSlash ((List.takeWhile_sublist _).subset member)
  rw [takeWhile_append free, List.takeWhile_cons_of_pos (by decide), directoryPart_append shortName]

/-- The first path of a walk is empty or starts with a slash. -/
theorem directoryBefore_rooted {bytes path : Text} (rooted : ∃ rest, path = '/' :: rest) :
    ∀ byte ∈ (directoryBefore bytes path).head?, byte = '/' := by
  rcases rooted with ⟨rest, rfl⟩
  intro byte isHead
  cases start : directoryBefore bytes ('/' :: rest) with
  | nil =>
      rw [start] at isHead
      contradiction
  | cons first directory =>
      have isPrefix := directoryBefore_isPrefix bytes ('/' :: rest)
      rw [start] at isHead isPrefix
      cases isHead
      exact (List.cons_prefix_cons.mp isPrefix).1

/-! ## Exactness -/

section

variable (joinPath : Text → Text → Text) (glob : Text → Text → Bool) (hfMaxPerPage : Nat)
  (parsedUrl : ParsedHFUrl) (repository : Repository) (listing : Text → Listing)

/-- The directory a pattern names before the first byte that stands for something else. -/
def literalDirectory (path : Text) : Text :=
  directoryBefore patternBytes path

/-- The files that a pattern is to find. -/
def matchingFiles (path : Text) : List Entry :=
  (below (literalDirectory path) repository.files).filter fun file =>
    matchSplits glob (split '/' file.path) (split '/' path)

/-- One URL for each file that matches, which names that file of the repository and
revision of the pattern; and each directory below the literal one is listed once, with
all its pages, under a URL that names it. -/
structure GlobsExactly (listed : Listed) : Prop where
  result : listed.urls.Perm ((matchingFiles glob repository parsedUrl.path).map fun file =>
    getHFUrl { parsedUrl with path := file.path })
  readBack : ∀ file ∈ matchingFiles glob repository parsedUrl.path,
    hfUrlParse (getHFUrl { parsedUrl with path := file.path }) =
      .ok { parsedUrl with path := file.path }
  pages : ∃ order : List Text,
    order.Perm (subtree repository (literalDirectory parsedUrl.path)) ∧
      listed.requests = pageUrls joinPath hfMaxPerPage parsedUrl listing order
  addresses : ∀ directory ∈ subtree repository (literalDirectory parsedUrl.path),
    Addresses joinPath parsedUrl hfMaxPerPage directory

/-- What a walk needs of the pattern, of the names of the directories it meets and of
the links between their pages. -/
structure Walkable : Prop where
  wildcard : ∃ byte ∈ parsedUrl.path, byte ∈ wildcards
  sharedPath : '?' ∉ directoryBefore wildcards parsedUrl.path
  repositoryFree : ∀ byte ∈ parsedUrl.repository, endsPath byte = false
  revisionFree : ∀ byte ∈ parsedUrl.revision, endsPath byte = false
  directories : ∀ directory ∈ subtree repository (literalDirectory parsedUrl.path),
    Unescaped directory
  links : ∀ directory ∈ subtree repository (literalDirectory parsedUrl.path),
    (listing directory).Plain

end

section

variable {joinPath : Text → Text → Text} {glob : Text → Text → Bool} {util : HTTPUtil}
  {server : TreeServer} {hfMaxPerPage : Nat} {path : Text} {parsedUrl : ParsedHFUrl}
  {repository : Repository} {listing : Text → Listing}

theorem Target.rooted (target : Target joinPath path parsedUrl) :
    ∃ rest, parsedUrl.path = '/' :: rest := by
  rcases Parts.exists_of_hfUrlParse target.parses with ⟨parts, -, rfl⟩
  exact parts.rooted

theorem Target.treeRoot_free_iff (target : Target joinPath path parsedUrl) :
    (∀ byte ∈ treeRoot parsedUrl, endsPath byte = false) ↔
      (∀ byte ∈ parsedUrl.repository, endsPath byte = false) ∧
        ∀ byte ∈ parsedUrl.revision, endsPath byte = false := by
  rcases Parts.exists_of_hfUrlParse target.parses with ⟨parts, -, rfl⟩
  have typeFree : ∀ byte ∈ parts.repoType, endsPath byte = false := by
    rcases parts.knownType with isType | isType
    · rw [isType]
      decide
    · rw [isType]
      decide
  have apiFree : ∀ byte ∈ "api".toList, endsPath byte = false := by decide
  have treeFree : ∀ byte ∈ "tree".toList, endsPath byte = false := by decide
  have isType : parts.parsed.repoType = parts.repoType := rfl
  rw [treeRoot, isType]
  constructor
  · intro free
    constructor
    · intro byte member
      exact free byte (by simp [member])
    · intro byte member
      exact free byte (by simp [member])
  · rintro ⟨repositoryFree, revisionFree⟩ byte member
    simp only [List.mem_append, List.mem_cons] at member
    have slash : endsPath '/' = false := by decide
    rcases member with ((((rfl | inApi) | rfl | inType) | rfl | inRepository) | rfl | inTree) |
      rfl | inRevision
    · exact slash
    · exact apiFree byte inApi
    · exact slash
    · exact typeFree byte inType
    · exact slash
    · exact repositoryFree byte inRepository
    · exact slash
    · exact treeFree byte inTree
    · exact slash
    · exact revisionFree byte inRevision

/-- Every directory that a walk can meet has an empty path or one with a slash in front. -/
theorem Target.subtree_rooted (target : Target joinPath path parsedUrl) {directory : Text}
    (member : directory ∈ subtree repository (literalDirectory parsedUrl.path)) :
    ∀ byte ∈ directory.head?, byte = '/' := by
  rcases List.mem_cons.mp member with rfl | isBelow
  · exact directoryBefore_rooted target.rooted
  · rcases List.mem_map.mp isBelow with ⟨entry, isEntry, rfl⟩
    rcases repository.exists_path_eq_cons
      (List.mem_append_right _ (mem_below.mp isEntry).1) with ⟨rest, isPath⟩
    intro byte isHead
    rw [isPath] at isHead
    cases isHead
    rfl

/-! ## Ended runs -/

/-- A run that ends reads a page, or there is nothing to list. -/
theorem Walk.run_eq_ok {pages : Nat} {walk opened after : Walk}
    (isNext : walk.next? joinPath hfMaxPerPage = some opened)
    (ends : walk.run joinPath util server hfMaxPerPage pages = some (.ok after)) :
    ∃ fewer middle, opened.readPage util server = .ok middle ∧
      middle.run joinPath util server hfMaxPerPage fewer = some (.ok after) := by
  cases pages with
  | zero =>
      rw [Walk.run, isNext] at ends
      contradiction
  | succ fewer =>
      rw [Walk.run, isNext] at ends
      dsimp only at ends
      cases reads : opened.readPage util server with
      | error error =>
          rw [reads] at ends
          cases ends
      | ok middle =>
          rw [reads] at ends
          exact ⟨fewer, middle, rfl, ends⟩

theorem Walk.requests_of_readPage {walk after : Walk} (reads : walk.readPage util server = .ok after) :
    after.requests =
      walk.requests ++ [requestUrl walk.currHfPath.endpoint walk.nextPageUrl] := by
  rw [Walk.readPage] at reads
  obtain ⟨page, -, reads⟩ := bind_eq_ok_iff.mp reads
  obtain ⟨found, -, reads⟩ := bind_eq_ok_iff.mp reads
  cases reads
  rfl

/-- In a run that ends every URL that was requested was read as a page. -/
theorem Walk.exists_requests_of_run {pages : Nat} {walk after : Walk}
    (ends : walk.run joinPath util server hfMaxPerPage pages = some (.ok after)) :
    ∃ urls, after.requests = walk.requests ++ urls ∧ ∀ url ∈ urls, ∃ opened read : Walk,
      requestUrl opened.currHfPath.endpoint opened.nextPageUrl = url ∧
        opened.readPage util server = .ok read := by
  induction pages generalizing walk with
  | zero =>
      rw [Walk.run] at ends
      split at ends
      · cases ends
        exact ⟨[], (List.append_nil _).symm, by simp⟩
      · contradiction
  | succ pages inductionHypothesis =>
      cases isNext : walk.next? joinPath hfMaxPerPage with
      | none =>
          rw [Walk.run, isNext] at ends
          cases ends
          exact ⟨[], (List.append_nil _).symm, by simp⟩
      | some opened =>
          have same : opened.requests = walk.requests := by
            unfold Walk.next? at isNext
            split at isNext
            · split at isNext
              · contradiction
              · cases isNext
                rfl
            · cases isNext
              rfl
          rw [Walk.run, isNext] at ends
          dsimp only at ends
          cases reads : opened.readPage util server with
          | error error =>
              rw [reads] at ends
              cases ends
          | ok middle =>
              rw [reads] at ends
              rcases inductionHypothesis ends with ⟨urls, requested, every⟩
              rw [Walk.requests_of_readPage reads, same, List.append_assoc] at requested
              refine ⟨_, requested, ?_⟩
              intro url member
              rcases List.mem_cons.mp member with rfl | later
              · exact ⟨opened, middle, rfl, reads⟩
              · exact every url later

/-- A page with a link is read only if the link is. -/
theorem free_of_readPage {opened read : Walk} {url body target : Text} {page : ListResult}
    (requested : requestUrl opened.currHfPath.endpoint opened.nextPageUrl = url)
    (reads : opened.readPage util server = .ok read)
    (answers : Answers server url body (some (linkTo target)))
    (isPage : parseListResult body {} = .ok page) (noOpening : '<' ∉ target)
    (noClosing : '>' ∉ target) : ',' ∉ target ∧ ';' ∉ target := by
  have nonempty : linkTo target ≠ [] := List.cons_ne_nil _ _
  rw [Walk.readPage_of_answers requested answers isPage, Option.getD_some, if_neg nonempty,
    parseNextUrlFromLinkHeader_linkTo noOpening noClosing] at reads
  by_contra separated
  rw [if_neg separated] at reads
  cases reads

/-- Behind every page but the last of a listing there is a link to the next one. -/
theorem exists_linked_of_chained {endpoint url : Text} {page : ListResult} {rest : List NextPage}
    (chained : Chained server endpoint url page rest) {next : NextPage} (member : next ∈ rest) :
    ∃ linking ∈ (Listing.mk page rest).urls url, ∃ body linkingPage,
      Answers server linking body (some (linkTo next.target)) ∧
        parseListResult body {} = .ok linkingPage ∧ Refers endpoint next.target next.url := by
  induction rest generalizing url page with
  | nil => contradiction
  | cons first rest inductionHypothesis =>
      rcases chained with ⟨⟨body, answers, reads⟩, refers, chained⟩
      rcases List.mem_cons.mp member with rfl | later
      · exact ⟨url, List.mem_cons_self, body, page, answers, reads, refers⟩
      · rcases inductionHypothesis chained later with ⟨linking, isUrl, rest⟩
        exact ⟨linking, List.mem_cons_of_mem _ isUrl, rest⟩

/-! ## The start of a walk -/

def startOf (parsedUrl : ParsedHFUrl) : Walk where
  currHfPath := { parsedUrl with path := directoryBefore wildcards parsedUrl.path }
  dirs := [directoryBefore wildcards parsedUrl.path]

theorem globFiles_of_wildcard {pages : Nat} (parses : hfUrlParse path = .ok parsedUrl)
    (wildcard : ∃ byte ∈ parsedUrl.path, byte ∈ wildcards) :
    globFiles joinPath glob util server hfMaxPerPage pages path =
      ((startOf parsedUrl).run joinPath util server hfMaxPerPage pages).map fun outcome =>
        outcome.map fun walk => ⟨walk.result glob parsedUrl.path, walk.requests⟩ := by
  rcases wildcard with ⟨byte, member, isWildcard⟩
  cases found : findFirstOf wildcards parsedUrl.path with
  | none =>
      rw [findFirstOf, List.findIdx?_eq_none_iff] at found
      simpa [isWildcard] using found byte member
  | some position =>
      rw [globFiles, parses]
      dsimp only
      rw [found]
      dsimp only
      rw [substr_findFirstOf found]
      rfl

theorem globFiles_of_no_wildcard {pages : Nat} (parses : hfUrlParse path = .ok parsedUrl)
    (none : ¬ ∃ byte ∈ parsedUrl.path, byte ∈ wildcards) :
    globFiles joinPath glob util server hfMaxPerPage pages path = some (.ok ⟨[path], []⟩) := by
  have notFound : findFirstOf wildcards parsedUrl.path = Option.none := by
    rw [findFirstOf, List.findIdx?_eq_none_iff]
    intro byte member
    exact decide_eq_false fun isWildcard => none ⟨byte, member, isWildcard⟩
  rw [globFiles, parses]
  dsimp only
  rw [notFound]

theorem startOf_next? (parsedUrl : ParsedHFUrl) : (startOf parsedUrl).next? joinPath hfMaxPerPage =
    some { startOf parsedUrl with
      dirs := []
      nextPageUrl := getTreeUrl joinPath
        { parsedUrl with path := directoryBefore wildcards parsedUrl.path } hfMaxPerPage } :=
  rfl

/-! ## Both directions -/

/-- A walk over directories that URLs name finds what it is to find. -/
theorem exists_globsExactly_of_walkable (target : Target joinPath path parsedUrl)
    (serves : Serves joinPath server hfMaxPerPage parsedUrl repository listing)
    (walkable : Walkable parsedUrl repository listing) :
    ∃ pages listed,
      globFiles joinPath glob util server hfMaxPerPage pages path = some (.ok listed) ∧
        GlobsExactly joinPath glob hfMaxPerPage parsedUrl repository listing listed := by
  have same : directoryBefore wildcards parsedUrl.path = literalDirectory parsedUrl.path :=
    (directoryBefore_patternBytes target.rooted walkable.sharedPath).symm
  have rootFree := target.treeRoot_free_iff.mpr ⟨walkable.repositoryFree, walkable.revisionFree⟩
  have addresses : ∀ directory ∈ subtree repository (literalDirectory parsedUrl.path),
      Addresses joinPath parsedUrl hfMaxPerPage directory := fun directory member =>
    (target.addresses_iff (target.subtree_rooted member)).mpr
      ⟨rootFree, walkable.directories directory member⟩
  have between : Between parsedUrl (startOf parsedUrl) := ⟨⟨_, rfl⟩, rfl⟩
  have stack : (startOf parsedUrl).dirs = [] ++ [literalDirectory parsedUrl.path] := by
    rw [startOf, same]
    rfl
  have named : ∀ directory ∈ subtree repository (literalDirectory parsedUrl.path),
      Addresses joinPath parsedUrl hfMaxPerPage directory ∧ (listing directory).Plain :=
    fun directory member => ⟨addresses directory member, walkable.links directory member⟩
  obtain ⟨order, files, after, ⟨orderPerm, filesPerm⟩, comes⟩ : ∃ order files after,
      (order.Perm (subtree repository (literalDirectory parsedUrl.path)) ∧ files.Perm
        ((below (literalDirectory parsedUrl.path) repository.files).map Entry.path)) ∧
      Comes joinPath util server hfMaxPerPage parsedUrl listing (startOf parsedUrl) [] order files
        after := exists_comes_of_directory target serves _ named between stack
  rcases comes.continues with ⟨pages, continues⟩
  have ends : after.run joinPath util server hfMaxPerPage 0 = some (.ok after) := by
    rw [Walk.run, Walk.next?, comes.between.noPage, comes.stack]
    rfl
  have runs := (continues 0).trans ends
  rcases comes.between.same with ⟨last, current⟩
  refine ⟨0 + pages, ⟨after.result glob parsedUrl.path, after.requests⟩, ?_, ?_, ?_, ?_, addresses⟩
  · rw [globFiles_of_wildcard target.parses walkable.wildcard, runs]
    rfl
  · have found : after.files = files := comes.found
    rw [Walk.result, found, current, matchingFiles]
    have matched := (filesPerm.filter fun file =>
      matchSplits glob (split '/' file) (split '/' parsedUrl.path)).map fun file =>
        getHFUrl { parsedUrl with path := file }
    rwa [List.filter_map, List.map_map] at matched
  · intro file member
    have isEntry := (mem_below.mp (List.mem_filter.mp member).1).1
    exact hfUrlParse_getHFUrl target.parses
      (repository.exists_path_eq_cons (List.mem_append_left _ isEntry))
  · exact ⟨order, orderPerm, comes.requested⟩

/-- A walk that found what it was to find met only directories that URLs name. -/
theorem walkable_of_globsExactly (target : Target joinPath path parsedUrl)
    (serves : Serves joinPath server hfMaxPerPage parsedUrl repository listing) {pages : Nat}
    {listed : Listed}
    (globs : globFiles joinPath glob util server hfMaxPerPage pages path = some (.ok listed))
    (exact : GlobsExactly joinPath glob hfMaxPerPage parsedUrl repository listing listed) :
    Walkable parsedUrl repository listing := by
  rcases exact.pages with ⟨order, orderPerm, requested⟩
  have nonempty : order ≠ [] := by
    rintro rfl
    exact absurd orderPerm.length_eq (by simp [subtree])
  rcases List.exists_cons_of_ne_nil nonempty with ⟨first, others, rfl⟩
  have wildcard : ∃ byte ∈ parsedUrl.path, byte ∈ wildcards := by
    by_contra none
    rw [globFiles_of_no_wildcard target.parses none] at globs
    cases globs
    rw [pageUrls, List.flatMap_cons] at requested
    contradiction
  rw [globFiles_of_wildcard target.parses wildcard] at globs
  obtain ⟨outcome, runs, globs⟩ := Option.map_eq_some_iff.mp globs
  cases outcome with
  | error error => cases globs
  | ok after =>
      cases globs
      change after.requests = _ at requested
      have named : ∀ directory ∈ subtree repository (literalDirectory parsedUrl.path),
          (∀ byte ∈ treeRoot parsedUrl, endsPath byte = false) ∧ Unescaped directory :=
        fun directory member => (target.addresses_iff (target.subtree_rooted member)).mp
          (exact.addresses directory member)
      have rootFree := target.treeRoot_free_iff.mp (named _ List.mem_cons_self).1
      -- The first request was for the directory the walk starts with.
      have isFirst : first = directoryBefore wildcards parsedUrl.path := by
        rcases Walk.run_eq_ok (startOf_next? parsedUrl) runs with ⟨fewer, middle, reads, rest⟩
        have firstRequest := Walk.requests_of_readPage reads
        rcases Walk.exists_requests_of_run rest with ⟨urls, laterRequests, -⟩
        rw [firstRequest, requested, pageUrls, List.flatMap_cons] at laterRequests
        have heads := congrArg List.head? laterRequests
        rw [Listing.urls, List.cons_append, List.head?_cons] at heads
        apply target.getTreeUrl_injective
        exact (Option.some.inj heads).trans (target.requestUrl_getTreeUrl _)
      have isMet : directoryBefore wildcards parsedUrl.path ∈
          subtree repository (literalDirectory parsedUrl.path) :=
        isFirst ▸ orderPerm.mem_iff.mp List.mem_cons_self
      refine ⟨wildcard, ?_, rootFree.1, rootFree.2, fun directory member =>
        (named directory member).2, ?_⟩
      · intro question
        exact absurd ((named _ isMet).2.1 '?' question) (by decide)
      · intro directory member next isNext
        obtain ⟨chained, -, -⟩ := serves directory directory (exact.addresses directory member)
        rcases exists_linked_of_chained chained isNext with
          ⟨linking, isUrl, body, page, answers, isPage, refers⟩
        rcases Walk.exists_requests_of_run runs with ⟨urls, allRequests, every⟩
        have isRequested : linking ∈ urls := by
          have inTrace : linking ∈ pageUrls joinPath hfMaxPerPage parsedUrl listing
              (first :: others) :=
            List.mem_flatMap.mpr ⟨directory, orderPerm.mem_iff.mpr member, isUrl⟩
          rw [← requested, allRequests] at inTrace
          exact inTrace
        rcases every linking isRequested with ⟨opened, read, isRequest, reads⟩
        exact free_of_readPage isRequest reads answers isPage refers.noOpening refers.noClosing

/-- A pattern finds exactly what it is to find if, and only if, the paths of the
directories it meets can stand in a URL as they are and the links between their pages
can be read. -/
theorem globFiles_exact_iff (target : Target joinPath path parsedUrl)
    (serves : Serves joinPath server hfMaxPerPage parsedUrl repository listing) :
    (∃ pages listed,
      globFiles joinPath glob util server hfMaxPerPage pages path = some (.ok listed) ∧
        GlobsExactly joinPath glob hfMaxPerPage parsedUrl repository listing listed) ↔
      Walkable parsedUrl repository listing := by
  constructor
  · rintro ⟨pages, listed, globs, exact⟩
    exact walkable_of_globsExactly target serves globs exact
  · exact exists_globsExactly_of_walkable target serves

end

/-! ## A directory with a question mark -/

/-- A repository with the files `/a/x.csv` and `/a?b/y.csv`. -/
def questionRepository : Repository where
  files := [⟨"/a".toList, "x.csv".toList, by decide⟩, ⟨"/a?b".toList, "y.csv".toList, by decide⟩]
  directories := [⟨[], "a".toList, by decide⟩, ⟨[], "a?b".toList, by decide⟩]
  nodup := by decide
  located := by decide

/-- The page of a directory, as text and as what it lists. -/
def questionPage (directory : Text) : Text × ListResult :=
  if directory = [] then
    ("[\x7b\"type\":\"directory\",\"path\":\"a\"\x7d,".toList ++
        "\x7b\"type\":\"directory\",\"path\":\"a?b\"\x7d]".toList,
      ⟨[], ["/a".toList, "/a?b".toList]⟩)
  else if directory = "/a".toList then
    ("[\x7b\"type\":\"file\",\"path\":\"a/x.csv\"\x7d]".toList, ⟨["/a/x.csv".toList], []⟩)
  else if directory = "/a?b".toList then
    ("[\x7b\"type\":\"file\",\"path\":\"a?b/y.csv\"\x7d]".toList, ⟨["/a?b/y.csv".toList], []⟩)
  else ("[]".toList, {})

/-- The endpoint lists the directory that follows the root of the tree. -/
def questionListed (url : Text) : Text × ListResult :=
  questionPage ((addressed url).drop "/api/datasets/u/r/tree/main".length)

def questionServer : TreeServer := fun url =>
  ⟨[], .answered ⟨200, "", [], ""⟩
    [(questionListed url).1.map fun byte => UInt8.ofNat byte.toNat]⟩

def slashed (base path : Text) : Text :=
  base ++ '/' :: path

def questionUrl (path : Text) : ParsedHFUrl :=
  { repository := "u/r".toList, path }

def questionListing (parsedUrl : ParsedHFUrl) (path : Text) : Listing :=
  ⟨(questionListed (getTreeUrl slashed { parsedUrl with path } 0)).2, []⟩

/-- The page of a directory is read as what is in the directory. -/
def Faithful (directory : Text) : Prop :=
  (parseListResult (questionPage directory).1 {} = .ok (questionPage directory).2 ∧
    ofBlock ((questionPage directory).1.map fun byte => UInt8.ofNat byte.toNat) =
      (questionPage directory).1) ∧
  ((questionPage directory).2.files = (inside directory questionRepository.files).map Entry.path ∧
    (questionPage directory).2.directories =
      (inside directory questionRepository.directories).map Entry.path)

instance (directory : Text) : Decidable (Faithful directory) :=
  inferInstanceAs (Decidable (_ ∧ _))

theorem faithful (directory : Text) : Faithful directory := by
  by_cases isRoot : directory = []
  · rw [isRoot]
    decide
  · by_cases isPlain : directory = "/a".toList
    · rw [isPlain]
      decide
    · by_cases isQuestion : directory = "/a?b".toList
      · rw [isQuestion]
        decide
      · have page : questionPage directory = ("[]".toList, {}) := by
          rw [questionPage, if_neg isRoot, if_neg isPlain, if_neg isQuestion]
        have noFile : inside directory questionRepository.files = [] := by
          rw [inside, questionRepository, List.filter_cons_of_neg, List.filter_cons_of_neg]
          · rfl
          · simpa using Ne.symm isQuestion
          · simpa using Ne.symm isPlain
        have noDirectory : inside directory questionRepository.directories = [] := by
          rw [inside, questionRepository, List.filter_cons_of_neg, List.filter_cons_of_neg]
          · rfl
          · simpa using Ne.symm isRoot
          · simpa using Ne.symm isRoot
        rw [Faithful, page, noFile, noDirectory]
        decide

theorem questionServer_serves (pattern : Text) :
    Serves slashed questionServer 0 (questionUrl pattern) questionRepository
      (questionListing (questionUrl pattern)) := by
  intro path directory names
  have root : percentDecode (treeRoot (questionUrl pattern)) =
      "/api/datasets/u/r/tree/main".toList := by
    have same : treeRoot (questionUrl pattern) = treeRoot (questionUrl []) := rfl
    rw [same]
    decide
  rw [root] at names
  have listed : questionListed (getTreeUrl slashed { questionUrl pattern with path } 0) =
      questionPage directory := by
    rw [questionListed, names]
    congr 1
  obtain ⟨⟨reads, bytes⟩, files, directories⟩ := faithful directory
  have isListing : questionListing (questionUrl pattern) path =
      ⟨(questionPage directory).2, []⟩ := by
    rw [questionListing, listed]
  rw [isListing]
  refine ⟨⟨(questionPage directory).1, ⟨[], "",
    [(questionPage directory).1.map fun byte => UInt8.ofNat byte.toNat], ?_, ?_, rfl⟩, reads⟩,
    ?_, ?_⟩
  · rw [questionServer, listed]
  · rw [List.flatten_cons, List.flatten_nil, List.append_nil]
    exact bytes
  · rw [Listing.files, List.flatMap_nil, List.append_nil]
    exact List.Perm.of_eq files
  · rw [Listing.directories, List.flatMap_nil, List.append_nil]
    exact List.Perm.of_eq directories

theorem slashed_joins : JoinsPaths slashed := by
  intro base path _ _ _
  rfl

/-- Below the directory without a question mark, what is to be found is found. -/
theorem globFiles_exact_iff_inside : ∃ pages listed,
    globFiles slashed (fun _ _ => true) HTTPUtil.plain questionServer 0 pages
        "hf://datasets/u/r/a/**".toList = some (.ok listed) ∧
      GlobsExactly slashed (fun _ _ => true) 0 (questionUrl "/a/**".toList) questionRepository
        (questionListing (questionUrl "/a/**".toList)) listed := by
  have target : Target slashed "hf://datasets/u/r/a/**".toList (questionUrl "/a/**".toList) :=
    ⟨by decide, by decide, by decide, slashed_joins⟩
  have onlyDirectory : subtree questionRepository (literalDirectory "/a/**".toList) =
      ["/a".toList] := by decide
  have walkable : Walkable (questionUrl "/a/**".toList) questionRepository
      (questionListing (questionUrl "/a/**".toList)) := by
    refine ⟨⟨'*', by decide, by decide⟩, by decide, by decide,
      by decide, ?_, ?_⟩
    · intro directory member
      rw [questionUrl, onlyDirectory, List.mem_singleton] at member
      rw [member]
      exact ⟨by decide, by decide⟩
    · intro directory _ next isNext
      contradiction
  exact (globFiles_exact_iff target (questionServer_serves _)).mpr walkable

/-- In the whole tree the file without a question mark is found twice, and the other
one is not found. -/
theorem globFiles_question :
    (globFiles slashed (fun _ _ => true) HTTPUtil.plain questionServer 0 3
        "hf://datasets/u/r/**".toList).map (fun outcome => outcome.map Listed.urls) =
      some (.ok ["hf://datasets/u/r/a/x.csv".toList, "hf://datasets/u/r/a/x.csv".toList]) ∧
    ¬ ∀ (joinPath : Text → Text → Text) (glob : Text → Text → Bool) (util : HTTPUtil)
      (server : TreeServer) (hfMaxPerPage : Nat) (path : Text) (parsedUrl : ParsedHFUrl)
      (repository : Repository) (listing : Text → Listing),
      Target joinPath path parsedUrl → (∃ byte ∈ parsedUrl.path, byte ∈ wildcards) →
      Serves joinPath server hfMaxPerPage parsedUrl repository listing →
      ∃ pages listed,
        globFiles joinPath glob util server hfMaxPerPage pages path = some (.ok listed) ∧
          GlobsExactly joinPath glob hfMaxPerPage parsedUrl repository listing listed := by
  constructor
  · decide
  · intro always
    have target : Target slashed "hf://datasets/u/r/**".toList (questionUrl "/**".toList) :=
      ⟨by decide, by decide, by decide, slashed_joins⟩
    have serves := questionServer_serves "/**".toList
    rcases always slashed (fun _ _ => true) HTTPUtil.plain questionServer 0 _ _ _ _ target
      ⟨'*', by decide, by decide⟩ serves with ⟨pages, listed, globs, exact⟩
    have walkable := walkable_of_globsExactly target serves globs exact
    have isMet : "/a?b".toList ∈ subtree questionRepository (literalDirectory "/**".toList) := by
      decide
    exact absurd ((walkable.directories _ isMet).1 '?' (by decide)) (by decide)

end Httpfs.Http.HuggingFace
