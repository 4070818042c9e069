import Httpfs.Core.Error
import Httpfs.Text.UriPath

/-!
# HuggingFace URLs

A URL `hf://type/user/name@revision/path` names a file of a repository.  The tree
of the repository is listed under a URL of the endpoint that ends in the path.
-/

namespace Httpfs.Http.HuggingFace

open Text

structure ParsedHFUrl where
  path : Text := []
  repository : Text := []
  endpoint : Text := "https://huggingface.co".toList
  revision : Text := "main".toList
  repoType : Text := "datasets".toList
  deriving DecidableEq, Repr

/-- What `ThrowParseError` throws. -/
def parseError (url : Text) : ErrorData :=
  .io ("Failed to parse '" ++ String.ofList url ++ "'. Please format url like: " ++
    "'hf://datasets/my-username/my-dataset/path/to/file.parquet'")

def repoTypeError (url : Text) : ErrorData :=
  .io ("Failed to parse: '" ++ String.ofList url ++ "'. Currently DuckDB only supports querying " ++
    "datasets or spaces, so the url should start with 'hf://datasets' or 'hf://spaces'")

/-- Repository and revision: what stands between two positions is cut at an `@`. -/
def parseRepository (url : Text) (lastDelim nextSlash : Nat) (nextAt : Option Nat) :
    ParsedHFUrl :=
  match nextAt with
  | some nextAt =>
      if nextAt < nextSlash then
        { repository := substr url (lastDelim + 1) (nextAt - lastDelim - 1)
          revision := substr url (nextAt + 1) (nextSlash - nextAt - 1) }
      else { repository := substr url (lastDelim + 1) (nextSlash - lastDelim - 1) }
  | none => { repository := substr url (lastDelim + 1) (nextSlash - lastDelim - 1) }

def hfUrlParse (url : Text) : Except ErrorData ParsedHFUrl :=
  if !startsWith url "hf://".toList then throw (.internal "Not an hf url")
  else
    match findFrom '/' url 5 with
    | none => throw (parseError url)
    | some currDelim =>
        let repoType := substr url 5 (currDelim - 5)
        if repoType ≠ "datasets".toList ∧ repoType ≠ "spaces".toList then
          throw (repoTypeError url)
        else
          match findFrom '/' url (currDelim + 1) with
          | none => throw (parseError url)
          | some repoDelim =>
              let nextAt := findFrom '@' url (repoDelim + 1)
              match findFrom '/' url (repoDelim + 1) with
              | none => throw (parseError url)
              | some nextSlash =>
                  .ok { parseRepository url currDelim nextSlash nextAt with
                    repoType
                    path := substrFrom url nextSlash }

def getHFUrl (url : ParsedHFUrl) : Text :=
  if url.revision = "main".toList then
    "hf://".toList ++ url.repoType ++ "/".toList ++ url.repository ++ url.path
  else
    "hf://".toList ++ url.repoType ++ "/".toList ++ url.repository ++ "@".toList ++ url.revision ++
      url.path

/-- The URL a directory is listed under, in pages of `limit` entries if it is not 0. -/
def getTreeUrl (joinPath : Text → Text → Text) (url : ParsedHFUrl) (limit : Nat) : Text :=
  let httpUrl := joinPath url.endpoint "api".toList
  let httpUrl := joinPath httpUrl url.repoType
  let httpUrl := joinPath httpUrl url.repository
  let httpUrl := joinPath httpUrl "tree".toList
  let httpUrl := joinPath httpUrl url.revision
  let httpUrl := httpUrl ++ url.path
  if 0 < limit then httpUrl ++ "?limit=".toList ++ (toString limit).toList else httpUrl

/-! ## Parsing -/

/-- The parts of a URL: user and name are followed by a slash, and the name may
have a revision in it. -/
structure Parts where
  repoType : Text
  user : Text
  name : Text
  path : Text
  knownType : repoType = "datasets".toList ∨ repoType = "spaces".toList
  userFree : '/' ∉ user
  nameFree : '/' ∉ name
  rooted : ∃ rest, path = '/' :: rest

namespace Parts

def url (parts : Parts) : Text :=
  "hf://".toList ++ (parts.repoType ++ '/' :: (parts.user ++ '/' :: (parts.name ++ parts.path)))

def parsed (parts : Parts) : ParsedHFUrl where
  repoType := parts.repoType
  repository := parts.user ++ '/' :: parts.name.takeWhile (· ≠ '@')
  revision :=
    if '@' ∈ parts.name then (parts.name.dropWhile (· ≠ '@')).drop 1 else "main".toList
  path := parts.path

theorem url_eq (parts : Parts) :
    parts.url = "hf://".toList ++
      (parts.repoType ++ '/' :: (parts.user ++ '/' :: (parts.name ++ parts.path))) :=
  rfl

theorem typeFree (parts : Parts) : '/' ∉ parts.repoType := by
  rcases parts.knownType with isType | isType
  · rw [isType]
    decide
  · rw [isType]
    decide

/-- The repository and the revision are cut out between the slashes. -/
theorem parseRepository_eq {url front user name back : Text} {lastDelim repoDelim nextSlash : Nat}
    (pieces : url = front ++ '/' :: (user ++ '/' :: (name ++ '/' :: back)))
    (isLast : front.length = lastDelim) (isRepo : lastDelim + 1 + user.length = repoDelim)
    (isNext : repoDelim + 1 + name.length = nextSlash) :
    parseRepository url lastDelim nextSlash (findFrom '@' url (repoDelim + 1)) =
      { repository := user ++ '/' :: name.takeWhile (· ≠ '@')
        revision :=
          if '@' ∈ name then (name.dropWhile (· ≠ '@')).drop 1 else "main".toList } := by
  have beforeName : (front ++ '/' :: (user ++ ['/'])).length = repoDelim + 1 := by
    simp only [List.length_append, List.length_cons, List.length_nil]
    omega
  have untilFront : (front ++ ['/']).length = lastDelim + 1 := by
    rw [List.length_append, isLast]
    rfl
  have wholeRepository : substr url (lastDelim + 1) (nextSlash - lastDelim - 1) =
      user ++ '/' :: name := by
    have cut : url = (front ++ ['/']) ++ ((user ++ '/' :: name) ++ '/' :: back) := by
      simp [pieces]
    apply substr_of_eq cut untilFront
    simp only [List.length_append, List.length_cons]
    omega
  by_cases hasRevision : '@' ∈ name
  · rcases List.eq_append_cons_of_mem hasRevision with ⟨before, revision, rfl, free⟩
    have cut : url = (front ++ '/' :: (user ++ ['/'])) ++
        (before ++ '@' :: (revision ++ '/' :: back)) := by
      simp [pieces]
    have inside : repoDelim + 1 + before.length < nextSlash := by
      rw [List.length_append, List.length_cons] at isNext
      omega
    rw [findFrom_of_eq cut beforeName free, parseRepository, if_pos inside, if_pos hasRevision,
      takeWhile_ne_append free, dropWhile_ne_append free]
    congr 1
    · have repositoryCut : url = (front ++ ['/']) ++
          ((user ++ '/' :: before) ++ ('@' :: (revision ++ '/' :: back))) := by
        simp [pieces]
      apply substr_of_eq repositoryCut untilFront
      simp only [List.length_append, List.length_cons]
      omega
    · have revisionCut : url = (front ++ '/' :: (user ++ '/' :: (before ++ ['@']))) ++
          (revision ++ '/' :: back) := by
        simp [pieces]
      apply substr_of_eq revisionCut
      · simp only [List.length_append, List.length_cons, List.length_nil]
        omega
      · simp only [List.length_append, List.length_cons] at isNext ⊢
        omega
  · have noRevision : parseRepository url lastDelim nextSlash (findFrom '@' url (repoDelim + 1)) =
        { repository := user ++ '/' :: name } := by
      cases found : findFrom '@' url (repoDelim + 1) with
      | none => rw [parseRepository, wholeRepository]
      | some nextAt =>
          have cut : url = (front ++ '/' :: (user ++ ['/'])) ++ (name ++ '/' :: back) := by
            simp [pieces]
          have behind : ¬ nextAt < nextSlash := by
            rw [cut, ← beforeName] at found
            rcases exists_of_findFrom_eq_some found with ⟨middle, after, same, free, rfl⟩
            intro before
            have short : middle.length < name.length := by omega
            have inside : name ++ '/' :: back = middle ++ '@' :: after := same
            apply hasRevision
            have here := congrArg (fun text => text[middle.length]?) inside
            simp only [List.getElem?_append_left short, List.getElem?_append_right le_rfl,
              Nat.sub_self, List.getElem?_cons_zero] at here
            exact List.mem_of_getElem? here
          rw [parseRepository, if_neg behind, wholeRepository]
    rw [noRevision, if_neg hasRevision, takeWhile_ne_of_not_mem hasRevision]

theorem hfUrlParse_url (parts : Parts) : hfUrlParse parts.url = .ok parts.parsed := by
  rcases parts.rooted with ⟨rest, isPath⟩
  have pieces : parts.url = "hf://".toList ++ (parts.repoType ++ '/' :: (parts.user ++ '/' ::
      (parts.name ++ '/' :: rest))) := by
    rw [url, isPath]
  generalize parts.url = text at pieces
  have start : startsWith text "hf://".toList = true := by
    rw [pieces]
    exact startsWith_append _ _
  have front : text = ("hf://".toList ++ parts.repoType) ++ '/' :: (parts.user ++ '/' ::
      (parts.name ++ '/' :: rest)) := by
    rw [pieces, List.append_assoc]
  have frontLength : ("hf://".toList ++ parts.repoType).length = 5 + parts.repoType.length := by
    rw [List.length_append]
    rfl
  have afterType : findFrom '/' text 5 = some (5 + parts.repoType.length) :=
    findFrom_of_eq pieces rfl parts.typeFree
  have typeText : substr text 5 (5 + parts.repoType.length - 5) = parts.repoType :=
    substr_of_eq pieces rfl (Nat.add_sub_cancel_left _ _).symm
  have known : ¬ (parts.repoType ≠ "datasets".toList ∧ parts.repoType ≠ "spaces".toList) := by
    rintro ⟨noDataset, noSpace⟩
    exact parts.knownType.elim noDataset noSpace
  have untilUser : (("hf://".toList ++ parts.repoType) ++ ['/']).length =
      5 + parts.repoType.length + 1 := by
    rw [List.length_append, frontLength]
    rfl
  have userPieces : text = (("hf://".toList ++ parts.repoType) ++ ['/']) ++
      (parts.user ++ '/' :: (parts.name ++ '/' :: rest)) := by
    rw [front, List.append_assoc _ ['/']]
    rfl
  have afterUser : findFrom '/' text (5 + parts.repoType.length + 1) =
      some (5 + parts.repoType.length + 1 + parts.user.length) :=
    findFrom_of_eq userPieces untilUser parts.userFree
  have namePieces : text = (("hf://".toList ++ parts.repoType) ++ ['/'] ++ (parts.user ++ ['/'])) ++
      (parts.name ++ '/' :: rest) := by
    rw [userPieces, List.append_assoc _ (parts.user ++ ['/']), List.append_assoc parts.user]
    rfl
  have untilName : (("hf://".toList ++ parts.repoType) ++ ['/'] ++ (parts.user ++ ['/'])).length =
      5 + parts.repoType.length + 1 + parts.user.length + 1 := by
    rw [List.length_append, untilUser, List.length_append]
    rfl
  have afterName : findFrom '/' text (5 + parts.repoType.length + 1 + parts.user.length + 1) =
      some (5 + parts.repoType.length + 1 + parts.user.length + 1 + parts.name.length) :=
    findFrom_of_eq namePieces untilName parts.nameFree
  have pathPieces : text = (("hf://".toList ++ parts.repoType) ++ ['/'] ++ (parts.user ++ ['/']) ++
      parts.name) ++ '/' :: rest := by
    rw [namePieces, List.append_assoc _ parts.name]
  have pathText : substrFrom text
      (5 + parts.repoType.length + 1 + parts.user.length + 1 + parts.name.length) = parts.path := by
    rw [isPath]
    apply substrFrom_of_eq pathPieces
    rw [List.length_append, untilName]
  have repository := parseRepository_eq front frontLength rfl rfl
  simp only [hfUrlParse, start, Bool.not_true, Bool.false_eq_true, if_false, afterType, typeText,
    if_neg known, afterUser, afterName, pathText, repository]
  rfl

/-- What is read is read from such parts. -/
theorem exists_of_hfUrlParse {text : Text} {parsedUrl : ParsedHFUrl}
    (parses : hfUrlParse text = .ok parsedUrl) :
    ∃ parts : Parts, text = parts.url ∧ parsedUrl = parts.parsed := by
  have isParts : ∃ parts : Parts, text = parts.url := by
    unfold hfUrlParse at parses
    split at parses
    · contradiction
    · rename_i notOther
      have start : startsWith text "hf://".toList = true := by simpa using notOther
      rcases startsWith_iff.mp start with ⟨behind, textEq⟩
      split at parses
      · contradiction
      · rename_i currDelim afterType
        dsimp only at parses
        have typeLength : "hf://".toList.length = 5 := rfl
        rw [← textEq, ← typeLength] at afterType
        rcases exists_of_findFrom_eq_some afterType with ⟨repoType, behindType, rfl, typeFree, isType⟩
        have typeText : substr text 5 (currDelim - 5) = repoType := by
          apply substr_of_eq textEq.symm typeLength
          rw [isType, typeLength, Nat.add_sub_cancel_left]
        rw [typeText] at parses
        split at parses
        · contradiction
        · rename_i known
          have knownType : repoType = "datasets".toList ∨ repoType = "spaces".toList := by
            rwa [not_and_or, not_not, not_not] at known
          split at parses
          · contradiction
          · rename_i repoDelim afterUser
            have untilUser : ("hf://".toList ++ (repoType ++ ['/'])).length = currDelim + 1 := by
              rw [List.length_append, List.length_append, isType]
              rfl
            have userPieces : ("hf://".toList ++ (repoType ++ ['/'])) ++ behindType = text := by
              rw [← textEq, List.append_assoc, List.append_assoc]
              rfl
            rw [← userPieces, ← untilUser] at afterUser
            rcases exists_of_findFrom_eq_some afterUser with
              ⟨user, behindUser, rfl, userFree, isUser⟩
            split at parses
            · contradiction
            · rename_i nextSlash afterName
              have untilName : ("hf://".toList ++ (repoType ++ ['/'] ++ (user ++ ['/']))).length =
                  repoDelim + 1 := by
                rw [isUser]
                simp only [List.length_append, List.length_cons, List.length_nil]
                omega
              have namePieces : ("hf://".toList ++ (repoType ++ ['/'] ++ (user ++ ['/']))) ++
                  behindUser = text := by
                rw [← userPieces]
                simp only [List.append_assoc, List.cons_append, List.nil_append]
              rw [← namePieces, ← untilName] at afterName
              rcases exists_of_findFrom_eq_some afterName with ⟨name, rest, rfl, nameFree, -⟩
              refine ⟨⟨repoType, user, name, '/' :: rest, knownType, userFree, nameFree,
                ⟨rest, rfl⟩⟩, ?_⟩
              rw [← textEq]
              rfl
  rcases isParts with ⟨parts, rfl⟩
  rw [hfUrlParse_url] at parses
  cases parses
  exact ⟨parts, rfl, rfl⟩

/-- A revision stands behind the first `@` of the name. -/
theorem parsed_cases (parts : Parts) :
    (∃ before revision, parts.name = before ++ '@' :: revision ∧ '@' ∉ before ∧
        parts.parsed.repository = parts.user ++ '/' :: before ∧
        parts.parsed.revision = revision) ∨
      ('@' ∉ parts.name ∧ parts.parsed.repository = parts.user ++ '/' :: parts.name ∧
        parts.parsed.revision = "main".toList) := by
  by_cases hasRevision : '@' ∈ parts.name
  · rcases List.eq_append_cons_of_mem hasRevision with ⟨before, revision, isName, free⟩
    refine .inl ⟨before, revision, isName, free, ?_, ?_⟩
    · rw [parsed, isName, takeWhile_ne_append free]
    · rw [parsed, if_pos hasRevision, isName, dropWhile_ne_append free]
      rfl
  · refine .inr ⟨hasRevision, ?_, ?_⟩
    · rw [parsed, takeWhile_ne_of_not_mem hasRevision]
    · rw [parsed, if_neg hasRevision]

end Parts

/-! ## Printing -/

/-- What was read, with any path put in, is printed so that it is read again. -/
theorem hfUrlParse_getHFUrl {text path : Text} {parsedUrl : ParsedHFUrl}
    (parses : hfUrlParse text = .ok parsedUrl) (rooted : ∃ rest, path = '/' :: rest) :
    hfUrlParse (getHFUrl { parsedUrl with path }) = .ok { parsedUrl with path } := by
  rcases Parts.exists_of_hfUrlParse parses with ⟨parts, -, rfl⟩
  rcases parts.parsed_cases with
    ⟨before, revision, isName, free, repositoryEq, revisionEq⟩ | ⟨-, repositoryEq, isMain⟩
  · by_cases isMain : revision = "main".toList
    · have beforeFree : '/' ∉ before := fun member =>
        parts.nameFree (isName ▸ List.mem_append_left _ member)
      let printed : Parts := ⟨parts.repoType, parts.user, before, path, parts.knownType,
        parts.userFree, beforeFree, rooted⟩
      have isUrl : getHFUrl { parts.parsed with path } = printed.url := by
        rw [getHFUrl, if_pos (revisionEq.trans isMain), repositoryEq]
        simp [Parts.url_eq, Parts.parsed, printed]
      rw [isUrl, printed.hfUrlParse_url]
      congr 1
      rw [Parts.parsed, if_neg free, takeWhile_ne_of_not_mem free, ← repositoryEq, ← isMain,
        ← revisionEq]
      rfl
    · let printed : Parts := ⟨parts.repoType, parts.user, parts.name, path, parts.knownType,
        parts.userFree, parts.nameFree, rooted⟩
      have isUrl : getHFUrl { parts.parsed with path } = printed.url := by
        rw [getHFUrl, if_neg (revisionEq ▸ isMain), repositoryEq, revisionEq]
        simp [Parts.url_eq, Parts.parsed, printed, isName]
      rw [isUrl, printed.hfUrlParse_url]
      rfl
  · let printed : Parts := ⟨parts.repoType, parts.user, parts.name, path, parts.knownType,
      parts.userFree, parts.nameFree, rooted⟩
    have isUrl : getHFUrl { parts.parsed with path } = printed.url := by
      rw [getHFUrl, if_pos isMain, repositoryEq]
      simp [Parts.url_eq, Parts.parsed, printed]
    rw [isUrl, printed.hfUrlParse_url]
    rfl

/-- A URL that names the default revision. -/
def spelledMain (url : ParsedHFUrl) : Text :=
  "hf://".toList ++ url.repoType ++ "/".toList ++ url.repository ++ "@main".toList ++ url.path

theorem getHFUrl_ne_spelledMain (url : ParsedHFUrl) : getHFUrl url ≠ spelledMain url := by
  intro same
  unfold getHFUrl spelledMain at same
  by_cases isMain : url.revision = "main".toList
  · rw [if_pos isMain] at same
    have lengths := congrArg List.length same
    have spelled : "@main".toList.length = 5 := rfl
    simp only [List.length_append] at lengths
    omega
  · rw [if_neg isMain] at same
    have revisions := List.append_cancel_right same
    rw [List.append_assoc _ "@".toList] at revisions
    have behind : '@' :: url.revision = '@' :: "main".toList := List.append_cancel_left revisions
    exact isMain (List.cons.inj behind).2

/-- Printing what was read gives the URL again, without a default revision. -/
theorem url_cases (parts : Parts) :
    parts.url = getHFUrl parts.parsed ∨ parts.url = spelledMain parts.parsed := by
  rcases parts.parsed_cases with
    ⟨before, revision, isName, free, repositoryEq, revisionEq⟩ | ⟨-, repositoryEq, isMain⟩
  · by_cases isMain : revision = "main".toList
    · right
      unfold spelledMain
      rw [repositoryEq]
      simp [Parts.url_eq, Parts.parsed, isName, isMain]
    · left
      unfold getHFUrl
      rw [if_neg (revisionEq ▸ isMain), repositoryEq, revisionEq]
      simp [Parts.url_eq, Parts.parsed, isName]
  · left
    unfold getHFUrl
    rw [if_pos isMain, repositoryEq]
    simp [Parts.url_eq, Parts.parsed]

/-- A URL that was read is printed as it was unless it names the default revision, and
what is printed is read as it was read, also with another path. -/
theorem getHFUrl_roundTrip {url : Text} {parsedUrl : ParsedHFUrl}
    (parses : hfUrlParse url = .ok parsedUrl) :
    hfUrlParse (getHFUrl parsedUrl) = .ok parsedUrl ∧
      (getHFUrl parsedUrl = url ↔ url ≠ spelledMain parsedUrl) ∧
      ∀ path, (∃ rest, path = '/' :: rest) →
        hfUrlParse (getHFUrl { parsedUrl with path }) = .ok { parsedUrl with path } := by
  rcases Parts.exists_of_hfUrlParse parses with ⟨parts, rfl, isParsed⟩
  refine ⟨?_, ?_, fun path => hfUrlParse_getHFUrl parses⟩
  · have rooted : ∃ rest, parsedUrl.path = '/' :: rest := by
      rw [isParsed]
      exact parts.rooted
    exact hfUrlParse_getHFUrl parses rooted
  · rw [isParsed]
    have different := getHFUrl_ne_spelledMain parts.parsed
    rcases url_cases parts with printed | spelled
    · rw [printed]
      exact ⟨fun _ => different, fun _ => rfl⟩
    · rw [spelled]
      exact ⟨fun same => absurd same different, fun other => absurd rfl other⟩

/-- An `@` in the name of the user, one before the revision and one in the path. -/
theorem getHFUrl_roundTrip_separators :
    let url := "hf://datasets/us@er/name@refs/dir@/file".toList
    let parsedUrl : ParsedHFUrl := {
      repository := "us@er/name".toList
      revision := "refs".toList
      path := "/dir@/file".toList }
    hfUrlParse url = .ok parsedUrl ∧ getHFUrl parsedUrl = url ∧
      hfUrlParse (getHFUrl parsedUrl) = .ok parsedUrl := by
  intro url parsedUrl
  have parses : hfUrlParse url = .ok parsedUrl := by decide
  have roundTrip := getHFUrl_roundTrip parses
  exact ⟨parses, roundTrip.2.1.mpr (by decide), roundTrip.1⟩

/-- Printing keeps different paths apart. -/
theorem getHFUrl_injective {parsedUrl : ParsedHFUrl} {path other : Text}
    (same : getHFUrl { parsedUrl with path } = getHFUrl { parsedUrl with path := other }) :
    path = other := by
  unfold getHFUrl at same
  dsimp only at same
  split at same
  · exact List.append_cancel_left same
  · exact List.append_cancel_left same

/-! ## The URL of a directory -/

/-- A path of names: none is empty or stands for another directory. -/
def PlainPath (path : Text) : Prop :=
  ∀ segment ∈ path.splitOn '/', segment ≠ [] ∧ segment ≠ ".".toList ∧ segment ≠ "..".toList

instance (path : Text) : Decidable (PlainPath path) :=
  inferInstanceAs (Decidable (∀ segment ∈ path.splitOn '/', _))

/-- Joining puts a slash between a path and a path of names. -/
def JoinsPaths (joinPath : Text → Text → Text) : Prop :=
  ∀ base path, base ≠ [] → base.getLast? ≠ some '/' → PlainPath path →
    joinPath base path = base ++ '/' :: path

theorem PlainPath.getLast?_ne {path : Text} (plain : PlainPath path) (base : Text) :
    (base ++ '/' :: path).getLast? ≠ some '/' := by
  intro ends
  rcases List.eq_nil_or_concat path with rfl | ⟨front, byte, rfl⟩
  · exact (plain [] (by decide)).1 rfl
  · rw [List.concat_eq_append] at ends plain
    have isSlash : byte = '/' := by
      rw [← List.cons_append, ← List.append_assoc, List.getLast?_concat] at ends
      exact Option.some.inj ends
    refine (plain [] ?_).1 rfl
    rw [isSlash, List.splitOn_append_cons_self]
    exact List.mem_append_right _ (by decide)

/-- What stands between the endpoint and the path of a directory. -/
def treeRoot (url : ParsedHFUrl) : Text :=
  '/' :: "api".toList ++ '/' :: url.repoType ++ '/' :: url.repository ++ '/' :: "tree".toList ++
    '/' :: url.revision

def limitQuery (limit : Nat) : Text :=
  if 0 < limit then "?limit=".toList ++ (toString limit).toList else []

theorem limitQuery_head (limit : Nat) : ∀ byte ∈ (limitQuery limit).head?,
    UriPath.endsPath byte = true := by
  intro byte isHead
  rw [limitQuery] at isHead
  split at isHead
  · cases isHead
    rfl
  · contradiction

theorem getTreeUrl_eq {joinPath : Text → Text → Text} (joins : JoinsPaths joinPath) {text : Text}
    {parsedUrl : ParsedHFUrl} (parses : hfUrlParse text = .ok parsedUrl)
    (plainRepository : PlainPath parsedUrl.repository)
    (plainRevision : PlainPath parsedUrl.revision) (path : Text) (limit : Nat) :
    getTreeUrl joinPath { parsedUrl with path } limit =
      "https://huggingface.co".toList ++ (treeRoot parsedUrl ++ path ++ limitQuery limit) := by
  rcases Parts.exists_of_hfUrlParse parses with ⟨parts, -, rfl⟩
  have plainType : PlainPath parts.repoType := by
    rcases parts.knownType with isType | isType
    · rw [isType]
      decide
    · rw [isType]
      decide
  have join : ∀ base path next, PlainPath path → PlainPath next →
      joinPath (base ++ '/' :: path) next = (base ++ '/' :: path) ++ '/' :: next := by
    intro base path next plain nextPlain
    exact joins _ _ (List.append_ne_nil_of_right_ne_nil _ (List.cons_ne_nil _ _))
      (plain.getLast?_ne base) nextPlain
  have plainApi : PlainPath "api".toList := by decide
  have plainTree : PlainPath "tree".toList := by decide
  have first : joinPath "https://huggingface.co".toList "api".toList =
      "https://huggingface.co".toList ++ '/' :: "api".toList :=
    joins _ _ (by decide) (by decide) plainApi
  have joined : joinPath (joinPath (joinPath (joinPath (joinPath "https://huggingface.co".toList
      "api".toList) parts.repoType) parts.parsed.repository) "tree".toList)
      parts.parsed.revision = "https://huggingface.co".toList ++ treeRoot parts.parsed := by
    have isType : parts.parsed.repoType = parts.repoType := rfl
    rw [first, join _ _ _ plainApi plainType, join _ _ _ plainType plainRepository,
      join _ _ _ plainRepository plainTree, join _ _ _ plainTree plainRevision, treeRoot, isType]
    simp only [List.append_assoc]
  have unfolded : getTreeUrl joinPath { parts.parsed with path } limit =
      "https://huggingface.co".toList ++ treeRoot parts.parsed ++ path ++ limitQuery limit := by
    rw [← joined, limitQuery]
    by_cases limited : 0 < limit
    · rw [getTreeUrl, if_pos limited, if_pos limited, ← List.append_assoc]
      rfl
    · rw [getTreeUrl, if_neg limited, if_neg limited, List.append_nil]
      rfl
  rw [unfolded, List.append_assoc, List.append_assoc, List.append_assoc]

end Httpfs.Http.HuggingFace
