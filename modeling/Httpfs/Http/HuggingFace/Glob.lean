import Httpfs.Http.HuggingFace.Listing

/-!
# Globbing a repository

The directories below the literal part of a pattern are walked depth first, with a
stack of the ones that are still to be listed.  The files found are matched against
the pattern segment by segment; matching one segment is a parameter.
-/

namespace Httpfs.Http.HuggingFace

open Text

/-! ## Matching -/

/-- `Match`: the segments of a file against the segments of a pattern. -/
def matchSplits (glob : Text → Text → Bool) : (key pattern : List Text) → Bool
  | key, [] => key.isEmpty
  | [], _ :: _ => false
  | first :: rest, segment :: pattern =>
      if segment = "**".toList then
        pattern.isEmpty ||
          -- The rest of the pattern may start at every remaining segment.
          (first :: rest).tails.any fun suffix =>
            !suffix.isEmpty && matchSplits glob suffix pattern
      else glob first segment && matchSplits glob rest pattern

/-! ## The literal part of a pattern -/

/-- The bytes that `Glob` looks for. -/
def wildcards : Text :=
  "*[\\".toList

/-- Position of the last occurrence of a byte. -/
def findLastOf (byte : Char) (text : Text) : Option Nat :=
  (text.reverse.findIdx? (· == byte)).map (text.length - 1 - ·)

/-- What stands before the last slash. -/
def directoryPart (text : Text) : Text :=
  match findLastOf '/' text with
  | none => []
  | some lastPathSlash => substr text 0 lastPathSlash

/-! ## The walk -/

/-- The variables of the loop, and the URLs that were requested so far. -/
structure Walk where
  currHfPath : ParsedHFUrl
  files : List Text := []
  dirs : List Text
  nextPageUrl : Text := []
  requests : List Text := []
  deriving DecidableEq, Repr

/-- What a call returns, and the URLs it requested. -/
structure Listed where
  urls : List Text
  requests : List Text
  deriving DecidableEq, Repr

section

variable (joinPath : Text → Text → Text) (glob : Text → Text → Bool) (util : File.HTTPUtil)
  (server : TreeServer) (hfMaxPerPage : Nat)

/-- The page to request: the next one, or the first of the directory on top. -/
def Walk.next? (walk : Walk) : Option Walk :=
  if walk.nextPageUrl.isEmpty then
    match walk.dirs.getLast? with
    | none => none
    | some path =>
        let currHfPath := { walk.currHfPath with path }
        some { walk with
          currHfPath
          dirs := walk.dirs.dropLast
          nextPageUrl := getTreeUrl joinPath currHfPath hfMaxPerPage }
  else some walk

def Walk.readPage (walk : Walk) : Except ErrorData Walk := do
  let (response, nextPageUrl) ← listHFRequest util server walk.currHfPath walk.nextPageUrl
  let found ← parseListResult response ⟨walk.files, walk.dirs⟩
  pure { walk with
    files := found.files
    dirs := found.directories
    nextPageUrl
    requests := walk.requests ++ [requestUrl walk.currHfPath.endpoint walk.nextPageUrl] }

/-- The loop; `none` if it has not ended after so many pages. -/
def Walk.run : (pages : Nat) → Walk → Option (Except ErrorData Walk)
  | 0, walk => if (walk.next? joinPath hfMaxPerPage).isNone then some (.ok walk) else none
  | pages + 1, walk =>
      match walk.next? joinPath hfMaxPerPage with
      | none => some (.ok walk)
      | some walk =>
          match walk.readPage util server with
          | .error error => some (.error error)
          | .ok walk => Walk.run pages walk

/-- The files that match, as URLs. -/
def Walk.result (walk : Walk) (pattern : Text) : List Text :=
  (walk.files.filter fun file => matchSplits glob (split '/' file) (split '/' pattern)).map
    fun file => getHFUrl { walk.currHfPath with path := file }

/-- `Glob`, with a bound on the pages that are requested. -/
def globFiles (pages : Nat) (path : Text) : Option (Except ErrorData Listed) :=
  match hfUrlParse path with
  | .error error => some (.error error)
  | .ok parsedGlobUrl =>
      match findFirstOf wildcards parsedGlobUrl.path with
      | none => some (.ok ⟨[path], []⟩)
      | some firstWildcardPos =>
          let sharedPath := directoryPart (substr parsedGlobUrl.path 0 firstWildcardPos)
          let walk : Walk :=
            { currHfPath := { parsedGlobUrl with path := sharedPath }, dirs := [sharedPath] }
          (walk.run joinPath util server hfMaxPerPage pages).map fun outcome =>
            outcome.map fun walk => ⟨walk.result glob parsedGlobUrl.path, walk.requests⟩

end

end Httpfs.Http.HuggingFace
