import Httpfs.Http.HuggingFace.Glob
import Httpfs.Http.HuggingFace.Repository

/-!
# Walking a served tree

An endpoint lists the directory that the path of a URL names, in pages that lead
from one to the next.  Where the URL of every directory names that directory, a
walk reads every page of every directory below its start, and each once.
-/

namespace Httpfs.Http.HuggingFace

open File Text UriPath

/-! ## Pages -/

/-- A page behind the first: the target of the link to it, and its URL. -/
structure NextPage where
  target : Text
  url : Text
  page : ListResult
  deriving DecidableEq, Repr

structure Listing where
  first : ListResult
  rest : List NextPage
  deriving DecidableEq, Repr

namespace Listing

def files (listing : Listing) : List Text :=
  listing.first.files ++ listing.rest.flatMap fun next => next.page.files

def directories (listing : Listing) : List Text :=
  listing.first.directories ++ listing.rest.flatMap fun next => next.page.directories

/-- The URLs of the pages, the first of which is given. -/
def urls (listing : Listing) (url : Text) : List Text :=
  url :: listing.rest.map NextPage.url

/-- No separator of links or of their parts is in the target of a link. -/
def Plain (listing : Listing) : Prop :=
  ∀ next ∈ listing.rest, ',' ∉ next.target ∧ ';' ∉ next.target

end Listing

/-- From a URL on the server sends these pages, each but the last with a link to the
next one. -/
def Chained (server : TreeServer) (endpoint : Text) : Text → ListResult → List NextPage → Prop
  | url, page, [] =>
      ∃ body, Answers server url body none ∧ parseListResult body {} = .ok page
  | url, page, next :: rest =>
      (∃ body, Answers server url body (some (linkTo next.target)) ∧
        parseListResult body {} = .ok page) ∧
      Refers endpoint next.target next.url ∧ Chained server endpoint next.url next.page rest

section

variable {joinPath : Text → Text → Text} {util : HTTPUtil} {server : TreeServer}
  {hfMaxPerPage : Nat}

/-! ## One page -/

theorem Walk.readPage_of_answers {walk : Walk} {url body : Text} {link : Option Text}
    {page : ListResult} (requested : requestUrl walk.currHfPath.endpoint walk.nextPageUrl = url)
    (answers : Answers server url body link) (reads : parseListResult body {} = .ok page) :
    walk.readPage util server =
      (if link.getD [] = [] then .ok [] else parseNextUrlFromLinkHeader (link.getD [])).map
        fun nextPageUrl => { walk with
          files := walk.files ++ page.files
          dirs := walk.dirs ++ page.directories
          nextPageUrl
          requests := walk.requests ++ [url] } := by
  have appended : parseListResult body ⟨walk.files, walk.dirs⟩ =
      .ok ⟨walk.files ++ page.files, walk.dirs ++ page.directories⟩ := by
    rw [parseListResult_append, reads]
    rfl
  rw [Walk.readPage, listHFRequest_of_answers (requested ▸ answers)]
  split
  · change (do
      let found ← parseListResult body ⟨walk.files, walk.dirs⟩
      pure _) = _
    rw [appended, requested]
    rfl
  · cases parseNextUrlFromLinkHeader (link.getD []) with
    | error error => rfl
    | ok nextPageUrl =>
        change (do
          let found ← parseListResult body ⟨walk.files, walk.dirs⟩
          pure _) = _
        rw [appended, requested]
        rfl

/-! ## Runs -/

/-- After some pages the walk goes on as another one. -/
def Continues (joinPath : Text → Text → Text) (util : HTTPUtil) (server : TreeServer)
    (hfMaxPerPage : Nat) (walk after : Walk) : Prop :=
  ∃ pages, ∀ more, walk.run joinPath util server hfMaxPerPage (more + pages) =
    after.run joinPath util server hfMaxPerPage more

theorem Continues.refl (walk : Walk) :
    Continues joinPath util server hfMaxPerPage walk walk :=
  ⟨0, fun _ => rfl⟩

theorem Continues.trans {first second third : Walk}
    (front : Continues joinPath util server hfMaxPerPage first second)
    (back : Continues joinPath util server hfMaxPerPage second third) :
    Continues joinPath util server hfMaxPerPage first third := by
  rcases front with ⟨frontPages, front⟩
  rcases back with ⟨backPages, back⟩
  refine ⟨backPages + frontPages, ?_⟩
  intro more
  rw [← Nat.add_assoc, front, back]

theorem Continues.single {walk opened after : Walk}
    (isNext : walk.next? joinPath hfMaxPerPage = some opened)
    (reads : opened.readPage util server = .ok after) :
    Continues joinPath util server hfMaxPerPage walk after := by
  refine ⟨1, ?_⟩
  intro more
  rw [Walk.run, isNext]
  dsimp only
  rw [reads]

/-- All pages of a listing are read, one after the other. -/
theorem Continues.listing {walk opened : Walk} {url : Text} {page : ListResult}
    {rest : List NextPage} (isNext : walk.next? joinPath hfMaxPerPage = some opened)
    (absolute : ∃ first scheme, opened.currHfPath.endpoint = first :: scheme ∧ first ≠ '/')
    (requested : requestUrl opened.currHfPath.endpoint opened.nextPageUrl = url)
    (chained : Chained server opened.currHfPath.endpoint url page rest)
    (plain : (Listing.mk page rest).Plain) :
    Continues joinPath util server hfMaxPerPage walk { opened with
      files := opened.files ++ (Listing.mk page rest).files
      dirs := opened.dirs ++ (Listing.mk page rest).directories
      nextPageUrl := []
      requests := opened.requests ++ (Listing.mk page rest).urls url } := by
  induction rest generalizing walk opened url page with
  | nil =>
      rcases chained with ⟨body, answers, reads⟩
      apply Continues.single isNext
      rw [Walk.readPage_of_answers requested answers reads]
      simp [Except.map, Listing.files, Listing.directories, Listing.urls]
  | cons next rest inductionHypothesis =>
      rcases chained with ⟨⟨body, answers, reads⟩, refers, chained⟩
      have linked : parseNextUrlFromLinkHeader (linkTo next.target) = .ok next.target := by
        rw [parseNextUrlFromLinkHeader_linkTo refers.noOpening refers.noClosing,
          if_pos (plain next List.mem_cons_self)]
      have nonempty : linkTo next.target ≠ [] := List.cons_ne_nil _ _
      let after : Walk := { opened with
        files := opened.files ++ page.files
        dirs := opened.dirs ++ page.directories
        nextPageUrl := next.target
        requests := opened.requests ++ [url] }
      have read : opened.readPage util server = .ok after := by
        rw [Walk.readPage_of_answers requested answers reads, Option.getD_some,
          if_neg nonempty, linked]
        rfl
      have stays : after.next? joinPath hfMaxPerPage = some after := by
        rw [Walk.next?, if_neg]
        simpa using refers.ne_nil
      have goesOn := inductionHypothesis stays absolute (refers.requestUrl_eq absolute) chained
        fun other member => plain other (List.mem_cons_of_mem _ member)
      have whole := (Continues.single isNext read).trans goesOn
      simpa [after, Listing.files, Listing.directories, Listing.urls] using whole

end

/-! ## Directories -/

/-- The pattern is read, and its repository and revision are paths of names. -/
structure Target (joinPath : Text → Text → Text) (path : Text) (parsedUrl : ParsedHFUrl) :
    Prop where
  parses : hfUrlParse path = .ok parsedUrl
  plainRepository : PlainPath parsedUrl.repository
  plainRevision : PlainPath parsedUrl.revision
  joins : JoinsPaths joinPath

/-- What the path of a URL names. -/
def addressed (url : Text) : Text :=
  percentDecode (pathOf url)

/-- The URL of a directory names that directory in the tree of the revision. -/
def Addresses (joinPath : Text → Text → Text) (parsedUrl : ParsedHFUrl) (hfMaxPerPage : Nat)
    (directory : Text) : Prop :=
  addressed (getTreeUrl joinPath { parsedUrl with path := directory } hfMaxPerPage) =
    percentDecode (treeRoot parsedUrl) ++ directory

/-- A URL that names a directory of the tree is answered with what is in it. -/
def Serves (joinPath : Text → Text → Text) (server : TreeServer) (hfMaxPerPage : Nat)
    (parsedUrl : ParsedHFUrl) (repository : Repository) (listing : Text → Listing) : Prop :=
  ∀ path directory,
    addressed (getTreeUrl joinPath { parsedUrl with path } hfMaxPerPage) =
        percentDecode (treeRoot parsedUrl) ++ directory →
      Chained server parsedUrl.endpoint (getTreeUrl joinPath { parsedUrl with path } hfMaxPerPage)
          (listing path).first (listing path).rest ∧
        (listing path).files.Perm ((inside directory repository.files).map Entry.path) ∧
        (listing path).directories.Perm ((inside directory repository.directories).map Entry.path)

/-- A path has nothing that ends the path of a URL and nothing that is an escape. -/
def Unescaped (path : Text) : Prop :=
  (∀ byte ∈ path, endsPath byte = false) ∧ hasEscape path = false

section

variable {joinPath : Text → Text → Text} {util : HTTPUtil} {server : TreeServer}
  {hfMaxPerPage : Nat} {pattern : Text} {parsedUrl : ParsedHFUrl}

theorem Target.endpoint_eq (target : Target joinPath pattern parsedUrl) :
    parsedUrl.endpoint = "https://huggingface.co".toList := by
  rcases Parts.exists_of_hfUrlParse target.parses with ⟨parts, -, rfl⟩
  rfl

theorem Target.absolute (target : Target joinPath pattern parsedUrl) :
    ∃ first scheme, parsedUrl.endpoint = first :: scheme ∧ first ≠ '/' :=
  ⟨'h', "ttps://huggingface.co".toList, target.endpoint_eq, by decide⟩

theorem Target.getTreeUrl_eq (target : Target joinPath pattern parsedUrl) (path : Text) :
    getTreeUrl joinPath { parsedUrl with path } hfMaxPerPage =
      "https://huggingface.co".toList ++
        (treeRoot parsedUrl ++ path ++ limitQuery hfMaxPerPage) :=
  HuggingFace.getTreeUrl_eq target.joins target.parses target.plainRepository
    target.plainRevision path hfMaxPerPage

theorem treeRoot_eq_cons (url : ParsedHFUrl) : ∃ rest, treeRoot url = '/' :: rest := by
  refine ⟨"api".toList ++ '/' :: url.repoType ++ '/' :: url.repository ++ '/' :: "tree".toList ++
    '/' :: url.revision, ?_⟩
  rw [treeRoot]
  simp only [List.cons_append]

/-- The URLs of different directories are different. -/
theorem Target.getTreeUrl_injective (target : Target joinPath pattern parsedUrl)
    {path other : Text} (same : getTreeUrl joinPath { parsedUrl with path } hfMaxPerPage =
      getTreeUrl joinPath { parsedUrl with path := other } hfMaxPerPage) : path = other := by
  rw [target.getTreeUrl_eq, target.getTreeUrl_eq] at same
  exact List.append_cancel_left (List.append_cancel_right (List.append_cancel_left same))

/-- The first request for a directory is made to its URL. -/
theorem Target.requestUrl_getTreeUrl (target : Target joinPath pattern parsedUrl) (path : Text) :
    requestUrl parsedUrl.endpoint (getTreeUrl joinPath { parsedUrl with path } hfMaxPerPage) =
      getTreeUrl joinPath { parsedUrl with path } hfMaxPerPage := by
  rcases treeRoot_eq_cons parsedUrl with ⟨rest, isRoot⟩
  rw [target.getTreeUrl_eq, target.endpoint_eq, isRoot]
  exact requestUrl_of_endpoint _ _

theorem Target.getTreeUrl_ne_nil (target : Target joinPath pattern parsedUrl) (path : Text) :
    getTreeUrl joinPath { parsedUrl with path } hfMaxPerPage ≠ [] := by
  rw [target.getTreeUrl_eq]
  exact List.append_ne_nil_of_left_ne_nil (by decide) _

/-- The URL of a directory names it exactly if its path can stand in a URL as it is. -/
theorem Target.addresses_iff (target : Target joinPath pattern parsedUrl) {directory : Text}
    (rooted : ∀ byte ∈ directory.head?, byte = '/') :
    Addresses joinPath parsedUrl hfMaxPerPage directory ↔
      (∀ byte ∈ treeRoot parsedUrl, endsPath byte = false) ∧ Unescaped directory := by
  rcases treeRoot_eq_cons parsedUrl with ⟨rest, isRoot⟩
  have endpoint : "https://huggingface.co".toList =
      "https".toList ++ ':' :: '/' :: '/' :: "huggingface.co".toList := rfl
  have cut : pathOf (getTreeUrl joinPath { parsedUrl with path := directory } hfMaxPerPage) =
      (treeRoot parsedUrl ++ directory ++ limitQuery hfMaxPerPage).takeWhile
        fun byte => !endsPath byte := by
    rw [target.getTreeUrl_eq, endpoint, isRoot, List.append_assoc, List.cons_append,
      List.cons_append, List.cons_append, List.cons_append, List.cons_append,
      pathOf_append (by decide) (by decide)]
  rw [Addresses, addressed, cut, percentDecode_cut_eq_iff rooted (limitQuery_head hfMaxPerPage),
    Unescaped, ← and_assoc]
  constructor
  · rintro ⟨free, noEscape⟩
    refine ⟨⟨?_, ?_⟩, noEscape⟩
    · exact fun byte member => free byte (List.mem_append_left _ member)
    · exact fun byte member => free byte (List.mem_append_right _ member)
  · rintro ⟨⟨rootFree, pathFree⟩, noEscape⟩
    refine ⟨?_, noEscape⟩
    intro byte member
    rcases List.mem_append.mp member with inRoot | inPath
    · exact rootFree byte inRoot
    · exact pathFree byte inPath

end

/-! ## The tree -/

section

variable {joinPath : Text → Text → Text} {util : HTTPUtil} {server : TreeServer}
  {hfMaxPerPage : Nat} {pattern : Text} {parsedUrl : ParsedHFUrl} {repository : Repository}
  {listing : Text → Listing}

/-- A directory and the directories below it. -/
def subtree (repository : Repository) (directory : Text) : List Text :=
  directory :: (below directory repository.directories).map Entry.path

/-- The URLs of all pages of some directories. -/
def pageUrls (joinPath : Text → Text → Text) (hfMaxPerPage : Nat) (parsedUrl : ParsedHFUrl)
    (listing : Text → Listing) (order : List Text) : List Text :=
  order.flatMap fun directory =>
    (listing directory).urls (getTreeUrl joinPath { parsedUrl with path := directory } hfMaxPerPage)

/-- A walk that stands between two directories. -/
structure Between (parsedUrl : ParsedHFUrl) (walk : Walk) : Prop where
  same : ∃ path, walk.currHfPath = { parsedUrl with path }
  noPage : walk.nextPageUrl = []

/-- A walk has come back to a stack, after it listed directories in an order. -/
structure Comes (joinPath : Text → Text → Text) (util : HTTPUtil) (server : TreeServer)
    (hfMaxPerPage : Nat) (parsedUrl : ParsedHFUrl) (listing : Text → Listing) (walk : Walk)
    (dirs order files : List Text) (after : Walk) : Prop where
  continues : Continues joinPath util server hfMaxPerPage walk after
  between : Between parsedUrl after
  stack : after.dirs = dirs
  found : after.files = walk.files ++ files
  requested : after.requests =
    walk.requests ++ pageUrls joinPath hfMaxPerPage parsedUrl listing order

/-- The directories on top of a stack are walked from the last one on. -/
theorem exists_comes_of_stack {stacked : List Text} {motive : Text → List Text → List Text → Prop}
    (each : ∀ directory ∈ stacked, ∀ walk dirs, Between parsedUrl walk →
      walk.dirs = dirs ++ [directory] → ∃ order files after, motive directory order files ∧
        Comes joinPath util server hfMaxPerPage parsedUrl listing walk dirs order files after)
    {walk : Walk} {dirs : List Text} (between : Between parsedUrl walk)
    (stack : walk.dirs = dirs ++ stacked) :
    ∃ orders : List (Text × List Text × List Text), ∃ after,
      orders.map Prod.fst = stacked.reverse ∧
      (∀ part ∈ orders, motive part.1 part.2.1 part.2.2) ∧
      Comes joinPath util server hfMaxPerPage parsedUrl listing walk dirs
        (orders.flatMap fun part => part.2.1) (orders.flatMap fun part => part.2.2) after := by
  induction stacked using List.reverseRecOn generalizing walk with
  | nil =>
      refine ⟨[], walk, rfl, by simp, Continues.refl walk, between, ?_, ?_, ?_⟩
      · rw [stack, List.append_nil]
      · simp
      · simp [pageUrls]
  | append_singleton stacked directory inductionHypothesis =>
      rcases each directory (List.mem_append_right _ List.mem_cons_self) walk (dirs ++ stacked)
        between (by rw [stack, List.append_assoc]) with ⟨order, files, middle, holds, first⟩
      rcases inductionHypothesis (fun other member => each other (List.mem_append_left _ member))
        first.between first.stack with ⟨orders, after, isStack, every, rest⟩
      refine ⟨(directory, order, files) :: orders, after, ?_, ?_, ?_⟩
      · rw [List.map_cons, isStack, List.reverse_append, List.reverse_singleton,
          List.singleton_append]
      · intro part member
        rcases List.mem_cons.mp member with rfl | later
        · exact holds
        · exact every part later
      · refine ⟨first.continues.trans rest.continues, rest.between, rest.stack, ?_, ?_⟩
        · rw [rest.found, first.found, List.flatMap_cons, List.append_assoc]
        · rw [rest.requested, first.requested, List.flatMap_cons, pageUrls, pageUrls, pageUrls,
            List.flatMap_append, List.append_assoc]

theorem subtree_perm (repository : Repository) (directory : Text) :
    (subtree repository directory).Perm (directory ::
      (inside directory repository.directories).flatMap fun child =>
        subtree repository child.path) := by
  apply List.Perm.cons
  have parts := (repository.below_perm (List.sublist_append_right _ _) directory).map Entry.path
  rw [List.map_append, List.map_flatMap] at parts
  exact parts.trans (List.map_append_flatMap_perm _ _ _)

theorem mem_subtree_of_inside {repository : Repository} {directory other : Text} {child : Entry}
    (isChild : child ∈ inside directory repository.directories)
    (member : other ∈ subtree repository child.path) : other ∈ subtree repository directory := by
  rw [(subtree_perm repository directory).mem_iff]
  exact List.mem_cons_of_mem _ (List.mem_flatMap.mpr ⟨child, isChild, member⟩)

/-- Every directory of a subtree that is named by its URL is listed once, and the files
below are found once. -/
theorem exists_comes_of_directory (target : Target joinPath pattern parsedUrl)
    (serves : Serves joinPath server hfMaxPerPage parsedUrl repository listing)
    (directory : Text)
    (named : ∀ other ∈ subtree repository directory,
      Addresses joinPath parsedUrl hfMaxPerPage other ∧ (listing other).Plain)
    {walk : Walk} {dirs : List Text} (between : Between parsedUrl walk)
    (stack : walk.dirs = dirs ++ [directory]) :
    ∃ order files after,
      (order.Perm (subtree repository directory) ∧
        files.Perm ((below directory repository.files).map Entry.path)) ∧
      Comes joinPath util server hfMaxPerPage parsedUrl listing walk dirs order files after := by
  induction directory using repository.directory_induction generalizing walk dirs with
  | step directory inductionHypothesis =>
      obtain ⟨addresses, plain⟩ := named directory List.mem_cons_self
      obtain ⟨chained, filesPerm, directoriesPerm⟩ := serves directory directory addresses
      rcases between.same with ⟨path, current⟩
      let opened : Walk := { walk with
        currHfPath := { parsedUrl with path := directory }
        dirs
        nextPageUrl := getTreeUrl joinPath { parsedUrl with path := directory } hfMaxPerPage }
      have isNext : walk.next? joinPath hfMaxPerPage = some opened := by
        rw [Walk.next?, between.noPage, if_pos (by rfl), stack, List.getLast?_concat]
        dsimp only
        rw [List.dropLast_concat, current]
      have listed : Continues joinPath util server hfMaxPerPage walk _ := Continues.listing isNext target.absolute
        (target.requestUrl_getTreeUrl directory) chained plain
      have each : ∀ child ∈ (listing directory).directories, ∀ walk dirs, Between parsedUrl walk →
          walk.dirs = dirs ++ [child] → ∃ order files after,
            (order.Perm (subtree repository child) ∧
              files.Perm ((below child repository.files).map Entry.path)) ∧
            Comes joinPath util server hfMaxPerPage parsedUrl listing walk dirs order files
              after := by
        intro child isListed walk dirs between stack
        rcases List.mem_map.mp (directoriesPerm.mem_iff.mp isListed) with ⟨entry, isChild, rfl⟩
        exact inductionHypothesis entry isChild
          (fun other member => named other (mem_subtree_of_inside isChild member)) between stack
      have afterBetween : Between parsedUrl { opened with
          files := opened.files ++ (listing directory).files
          dirs := opened.dirs ++ (listing directory).directories
          nextPageUrl := []
          requests := opened.requests ++ (listing directory).urls
            (getTreeUrl joinPath { parsedUrl with path := directory } hfMaxPerPage) } :=
        ⟨⟨directory, rfl⟩, rfl⟩
      rcases exists_comes_of_stack each afterBetween rfl with ⟨orders, after, isStack, every, rest⟩
      have stacked : (orders.map Prod.fst).Perm
          ((inside directory repository.directories).map Entry.path) := by
        rw [isStack]
        exact (List.reverse_perm _).trans directoriesPerm
      refine ⟨directory :: orders.flatMap (fun part => part.2.1),
        (listing directory).files ++ orders.flatMap (fun part => part.2.2), after,
        ⟨?_, ?_⟩, listed.trans rest.continues, rest.between, rest.stack, ?_, ?_⟩
      · refine List.Perm.trans ?_ (subtree_perm repository directory).symm
        apply List.Perm.cons
        have parts : (orders.flatMap fun part => part.2.1).Perm
            (orders.flatMap fun part => subtree repository part.1) :=
          List.Perm.flatMap_left _ fun part member => (every part member).1
        have children := stacked.flatMap_right (subtree repository)
        rw [List.flatMap_map, List.flatMap_map] at children
        exact parts.trans children
      · have whole := (repository.below_perm (List.sublist_append_left _ _) directory).map Entry.path
        rw [List.map_append, List.map_flatMap] at whole
        refine List.Perm.trans ?_ whole.symm
        apply List.Perm.append filesPerm
        have parts : (orders.flatMap fun part => part.2.2).Perm
            (orders.flatMap fun part => (below part.1 repository.files).map Entry.path) :=
          List.Perm.flatMap_left _ fun part member => (every part member).2
        have children := stacked.flatMap_right fun child =>
          (below child repository.files).map Entry.path
        rw [List.flatMap_map, List.flatMap_map] at children
        exact parts.trans children
      · rw [rest.found, List.append_assoc]
      · rw [rest.requested, pageUrls, pageUrls, List.flatMap_cons, List.append_assoc]

end

end Httpfs.Http.HuggingFace
