import Httpfs.S3.Delete.Sent
import Httpfs.S3.Glob.Flat
import Mathlib.Data.List.DropRight

/-!
# Removing a directory

A directory is listed by a glob walk, the listing hands on the part of every
URL after the directory, and the bulk delete reads that part as a URL of its
own.  A listing keeps the directory if one of the parts is no URL, or if there
is none of them and no key either.
-/

namespace Httpfs.S3.Delete

open Http Text Xml Glob
open scoped List

/-! ## Listing -/

/-- `RTrim` of the path separator. -/
def trimDirectory (directory : Text) : Text :=
  directory.rdropWhile (· == '/')

section Directory

/-! The host system joins two paths; list requests and settings come from the
environment of the walk and from the opener. -/

variable (joinPath : Text → Text → Text) (environment : Environment) (opener : Opener)

def globFilesExtended (path : Text) : Except ErrorData S3GlobResult :=
  match opener.settings? with
  | none => throw (.internal "Cannot S3 Glob without FileOpener")
  | some _ => openGlob environment path (readFrom opener.settings? path)

/-- All files of a walk, or none where `calls` calls do not finish it. -/
def globbedFiles (calls : Nat) (path : Text) : Option (Except ErrorData (List Text)) :=
  match globFilesExtended environment opener path with
  | .error error => some (.error error)
  | .ok walk =>
      (expandAll environment calls walk).map fun ended => ended.map S3GlobResult.expandedFiles

/-- Body of the loop of `ListFilesExtended`: the file without the base path. -/
def stripBasePath (directory basePath file : Text) : Except ErrorData Text :=
  if startsWith file basePath then pure (substrFrom file basePath.length)
  else
    throw (.invalidInput ("Globbed directory \"" ++ String.ofList directory ++
      "\", but found file \"" ++ String.ofList file ++
      "\" that does not start with base path \"" ++ String.ofList basePath ++ "\""))

/-- Whether there is a file, and the paths handed to the callback. -/
def listFilesExtended (calls : Nat) (directory : Text) :
    Option (Except ErrorData (Bool × List Text)) :=
  let trimmedDir := trimDirectory directory
  match globbedFiles environment opener calls (joinPath trimmedDir "**".toList) with
  | none => none
  | some (.error error) => some (.error error)
  | some (.ok files) =>
      if files.isEmpty then some (.ok (false, []))
      else
        some do
          let names ← files.mapM (stripBasePath directory (trimmedDir ++ "/".toList))
          pure (true, names)

variable {World : Type} (utf8Proc : Utf8Proc) (getError : BulkDelete → HTTPResponse → ErrorData)
  (bulkDelete : BulkDelete → World → Except ErrorData (HTTPResponse × Text) × World)
  (visits : Batches → Batches)

def removeDirectory (calls : Nat) (directory : Text) (world : World) : Option (Deletion World) :=
  match listFilesExtended joinPath environment opener calls directory with
  | none => none
  | some (.error error) => some ⟨.error error, [], world⟩
  | some (.ok (_, filesToRemove)) =>
      some (removeFiles utf8Proc getError bulkDelete visits opener filesToRemove world)

end Directory

/-! ## What a directory stands for -/

/-- The directory as a URL that ends in a slash, before its query string. -/
def directoryUrl (directory : Text) : Text :=
  trimDirectory (directory.takeWhile (· ≠ '?')) ++ '/' :: directory.dropWhile (· ≠ '?')

/-- The keys below a prefix that are no directory markers. -/
def keysUnder (content : List Text) (keyPrefix : Text) : List Text :=
  content.filter fun key => keyPrefix.isPrefixOf key && key.getLast? ≠ some '/'

/-- The request goes to the bucket of a parsed URL. -/
def BulkDelete.AddressedTo (request : BulkDelete) (target : ParsedS3Url) : Prop :=
  ∃ urlInfo, request.urlInfo = .ok urlInfo ∧ urlInfo.httpProto = target.httpProto ∧
    urlInfo.host = target.host ∧ urlInfo.path = getBucketPath target

section Directory

variable (joinPath : Text → Text → Text) (environment : Environment) (opener : Opener)
  (content : List Text) (target : ParsedS3Url)

/-- Removing the directory, if it returns normally, has named the keys below
the directory and no others, each once, in requests to the directory's bucket. -/
def DeletesDirectory (directory : Text) : Prop :=
  ∀ (World : Type) (utf8Proc : Utf8Proc) (getError : BulkDelete → HTTPResponse → ErrorData)
    (bulkDelete : BulkDelete → World → Except ErrorData (HTTPResponse × Text) × World)
    (visits : Batches → Batches), (∀ batches, (visits batches).Perm batches) →
    ∀ (calls : Nat) (world : World) (deletion : Deletion World),
      removeDirectory joinPath environment opener utf8Proc getError bulkDelete visits calls
        directory world = some deletion →
      deletion.outcome = .ok () →
      ∃ groups : List (List Text), groups.flatten.Perm (keysUnder content target.key) ∧
        List.Forall₂ (fun request keys =>
          request.body = writeDeleteObjectsRequest keys 0 keys.length ∧
            request.AddressedTo target) deletion.sent groups

/-- The walk of a pattern, and what its list requests ask for. -/
structure Walks (pattern : Text) (walk : S3GlobResult) (listed : ParsedS3Url) : Prop where
  opens : globFilesExtended environment opener pattern = .ok walk
  parses : parse walk.sharedPath walk.authParams = .ok listed

/-- The file starts with the base path, and what follows is read as a URL. -/
def ReadsAsUrl (basePath file : Text) : Prop :=
  ∃ name resolved, file = basePath ++ name ∧ resolvePath opener name = .ok resolved

/-- Among the files of a directory is one that is not read as a URL, or there is
no file because no key is below the directory. -/
def KeepsFiles (directory : Text) (files : List Text) : Prop :=
  (∃ file ∈ files, ¬ ReadsAsUrl opener (trimDirectory directory ++ "/".toList) file) ∨
    files = [] ∧ keysUnder content target.key = []

/-- The URLs of the listed keys that match keep the directory. -/
def KeepsKeys (directory : Text) : Prop :=
  ∀ walk listed,
    Walks environment opener (joinPath (trimDirectory directory) "**".toList) walk listed →
      KeepsFiles opener content target directory (reportedUrls environment.glob walk.parsedS3Url
        (content.filter fun key => listed.key.isPrefixOf key))

/-- The files that a walk ends with keep the directory. -/
def KeepsListing (directory : Text) : Prop :=
  ∀ calls files,
    globbedFiles environment opener calls (joinPath (trimDirectory directory) "**".toList) =
      some (.ok files) → KeepsFiles opener content target directory files

end Directory

/-! ## Files that keep the directory -/

section Keeping

variable {joinPath : Text → Text → Text} {environment : Environment} {opener : Opener}
  {content : List Text} {target : ParsedS3Url} {directory : Text}

/-- The names of files that all start with the base path. -/
theorem stripBasePath_mapM {basePath : Text} {files names : List Text} :
    files.mapM (stripBasePath directory basePath) = .ok names ↔
      files = names.map (basePath ++ ·) := by
  induction files generalizing names with
  | nil =>
      rw [List.mapM_nil]
      constructor
      · rintro ⟨⟩
        rfl
      · intro none
        rw [List.map_eq_nil_iff.mp none.symm]
        rfl
  | cons file files inductionHypothesis =>
      rw [List.mapM_cons, bind_eq_ok_iff]
      constructor
      · rintro ⟨name, strips, continues⟩
        rcases bind_eq_ok_iff.mp continues with ⟨rest, stripsRest, ⟨⟩⟩
        rw [stripBasePath] at strips
        split at strips
        · rename_i starts
          rcases startsWith_iff.mp starts with ⟨back, rfl⟩
          cases strips
          rw [List.map_cons, substrFrom_append, inductionHypothesis.mp stripsRest]
        · contradiction
      · intro eq
        rcases List.map_eq_cons_iff.mp eq.symm with ⟨name, rest, rfl, rfl, isRest⟩
        refine ⟨name, ?_, bind_eq_ok_iff.mpr ⟨rest, inductionHypothesis.mpr isRest.symm, rfl⟩⟩
        rw [stripBasePath, if_pos (startsWith_append _ _), substrFrom_append]
        rfl

/-- The paths of a bulk delete that returns all resolve. -/
theorem ResolvesAll.exists_of_mem {paths : List Text} {resolved : List ResolvedPath}
    (all : ResolvesAll opener paths resolved) {path : Text} (member : path ∈ paths) :
    ∃ found, resolvePath opener path = .ok found := by
  induction all with
  | nil => contradiction
  | @cons head found paths rest resolves later inductionHypothesis =>
      rcases List.mem_cons.mp member with rfl | inRest
      · exact ⟨found, resolves⟩
      · exact inductionHypothesis inRest

/-- A file that is no URL after the base path makes the removal fail; without a
file nothing is sent. -/
theorem removeDirectory_of_keepsFiles {World : Type} {utf8Proc : Utf8Proc}
    {getError : BulkDelete → HTTPResponse → ErrorData}
    {bulkDelete : BulkDelete → World → Except ErrorData (HTTPResponse × Text) × World}
    {visits : Batches → Batches} (permutes : ∀ batches, (visits batches).Perm batches)
    {calls : Nat} {world : World} {deletion : Deletion World} {files : List Text}
    (globs : globbedFiles environment opener calls
      (joinPath (trimDirectory directory) "**".toList) = some (.ok files))
    (keeps : KeepsFiles opener content target directory files)
    (removes : removeDirectory joinPath environment opener utf8Proc getError bulkDelete visits
      calls directory world = some deletion)
    (returns : deletion.outcome = .ok ()) :
    deletion.sent = [] ∧ keysUnder content target.key = [] := by
  rw [removeDirectory, listFilesExtended, globs] at removes
  dsimp only at removes
  rcases keeps with ⟨file, member, unread⟩ | ⟨rfl, noKeys⟩
  · exfalso
    have nonempty : files.isEmpty = false := by
      cases files with
      | nil => contradiction
      | cons => rfl
    rw [nonempty, if_neg Bool.false_ne_true] at removes
    cases strips : files.mapM
        (stripBasePath directory (trimDirectory directory ++ "/".toList)) with
    | error error =>
        rw [strips] at removes
        cases removes
        contradiction
    | ok names =>
        rw [strips] at removes
        cases removes
        rcases removeFiles_sends permutes returns with ⟨resolved, chunks, all, -, -⟩
        rw [stripBasePath_mapM.mp strips] at member
        rcases List.mem_map.mp member with ⟨name, isName, rfl⟩
        rcases all.exists_of_mem isName with ⟨found, resolves⟩
        exact unread ⟨name, found, rfl, resolves⟩
  · cases removes
    exact ⟨rfl, noKeys⟩

/-- A directory whose listing keeps it is removed as it should be. -/
theorem KeepsListing.deletes
    (keeps : KeepsListing joinPath environment opener content target directory) :
    DeletesDirectory joinPath environment opener content target directory := by
  intro World utf8Proc getError bulkDelete visits permutes calls world deletion removes returns
  cases globs : globbedFiles environment opener calls
      (joinPath (trimDirectory directory) "**".toList) with
  | none =>
      rw [removeDirectory, listFilesExtended, globs] at removes
      contradiction
  | some ended =>
      cases ended with
      | error error =>
          rw [removeDirectory, listFilesExtended, globs] at removes
          cases removes
          contradiction
      | ok files =>
          rcases removeDirectory_of_keepsFiles permutes globs (keeps calls files globs) removes
            returns with ⟨nothing, noKeys⟩
          refine ⟨[], ?_, ?_⟩
          · rw [noKeys]
            exact .refl []
          · rw [nothing]
            exact .nil

end Keeping

end Httpfs.S3.Delete
