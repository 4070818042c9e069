import Httpfs.Core.Error
import Httpfs.Text.Core

/-!
# Reading a listing

A page of a listing is the text of a JSON array of objects.  It is read without a
JSON parser: an entry goes from a brace to the one that closes it, and the type
and the path are looked for in between.
-/

namespace Httpfs.Http.HuggingFace

open Text

inductive EntryType
  | file
  | directory
  | unknown
  deriving DecidableEq, Repr

/-- The files and directories read so far. -/
structure ListResult where
  files : List Text := []
  directories : List Text := []
  deriving DecidableEq, Repr

namespace HFListResultParser

/-- What follows a token, if the input goes on with it. -/
def consume (token input : Text) : Option Text :=
  if startsWith input token then some (substrFrom input token.length) else none

/-- A string, its quote read, and what follows it. -/
def parseString : Text → Text × Text
  | [] => ([], [])
  | '"' :: rest => ([], rest)
  | '\\' :: escaped :: rest =>
      if escaped = '"' ∨ escaped = '\\' then
        let (result, rest) := parseString rest
        (escaped :: result, rest)
      else
        let (result, rest) := parseString (escaped :: rest)
        ('\\' :: result, rest)
  | byte :: rest =>
      let (result, rest) := parseString rest
      (byte :: result, rest)

def appendEntry (found : ListResult) (type : EntryType) (path : Option Text) :
    Except ErrorData ListResult :=
  match path, type with
  | none, _ => throw (.io "Failed to parse list result")
  | some _, .unknown => throw (.io "Failed to parse list result")
  | some path, .file => .ok { found with files := found.files ++ ['/' :: path] }
  | some path, .directory => .ok { found with directories := found.directories ++ ['/' :: path] }

/-- What is found from inside an entry on, and what follows the entry.  Every step
reads at least one byte of the input, which bounds the steps. -/
def parseEntry (found : ListResult) : (steps nested : Nat) → EntryType → Option Text → Text →
    Except ErrorData (ListResult × Text)
  | 0, _, _, _, input => .ok (found, input)
  | _ + 1, _, _, _, [] => .ok (found, [])
  | steps + 1, nested, type, path, byte :: rest =>
      if byte = '}' then
        if 0 < nested then parseEntry found steps (nested - 1) type path rest
        else (appendEntry found type path).map (·, rest)
      else if byte = '{' then parseEntry found steps (nested + 1) type path rest
      else
        match consume "\"type\":\"directory\"".toList (byte :: rest) with
        | some rest => parseEntry found steps nested .directory path rest
        | none =>
            match consume "\"type\":\"file\"".toList (byte :: rest) with
            | some rest => parseEntry found steps nested .file path rest
            | none =>
                match consume "\"path\":\"".toList (byte :: rest) with
                | some rest =>
                    let (path, rest) := parseString rest
                    parseEntry found steps nested type (some path) rest
                | none => parseEntry found steps nested type path rest

/-- `ParseEntries`: an entry starts behind the next opening brace. -/
def parseEntries : (steps : Nat) → ListResult → Text → Except ErrorData ListResult
  | 0, found, _ => .ok found
  | steps + 1, found, input =>
      match findFrom '{' input 0 with
      | none => .ok found
      | some position => do
          let input := substrFrom input (position + 1)
          let (found, input) ← parseEntry found input.length 0 .unknown none input
          parseEntries steps found input

end HFListResultParser

/-- `ParseListResult`: the entries of a page are appended to what was found before. -/
def parseListResult (input : Text) (found : ListResult) : Except ErrorData ListResult :=
  HFListResultParser.parseEntries (input.length + 1) found input

/-! ## Appending -/

/-- First what `front` found and then what `back` found. -/
def ListResult.append (front back : ListResult) : ListResult :=
  ⟨front.files ++ back.files, front.directories ++ back.directories⟩

namespace HFListResultParser

theorem appendEntry_append (front found : ListResult) (type : EntryType) (path : Option Text) :
    appendEntry (front.append found) type path =
      (appendEntry found type path).map front.append := by
  cases path with
  | none => rfl
  | some path =>
      cases type with
      | unknown => rfl
      | file =>
          rw [appendEntry, appendEntry, Except.map, ListResult.append, ListResult.append]
          dsimp only
          rw [List.append_assoc]
      | directory =>
          rw [appendEntry, appendEntry, Except.map, ListResult.append, ListResult.append]
          dsimp only
          rw [List.append_assoc]

theorem parseEntry_append (front found : ListResult) (steps nested : Nat) (type : EntryType)
    (path : Option Text) (input : Text) :
    parseEntry (front.append found) steps nested type path input =
      (parseEntry found steps nested type path input).map (Prod.map front.append id) := by
  induction steps generalizing nested type path input with
  | zero => rfl
  | succ steps inductionHypothesis =>
      cases input with
      | nil => rfl
      | cons byte rest =>
          rw [parseEntry, parseEntry]
          split
          · split
            · exact inductionHypothesis ..
            · rw [appendEntry_append]
              cases appendEntry found type path <;> rfl
          · split
            · exact inductionHypothesis ..
            · split
              · exact inductionHypothesis ..
              · split
                · exact inductionHypothesis ..
                · split
                  · exact inductionHypothesis ..
                  · exact inductionHypothesis ..

theorem parseEntries_append (front : ListResult) (steps : Nat) (found : ListResult) (input : Text) :
    parseEntries steps (front.append found) input =
      (parseEntries steps found input).map front.append := by
  induction steps generalizing found input with
  | zero => rfl
  | succ steps inductionHypothesis =>
      rw [parseEntries, parseEntries]
      split
      · rfl
      · rename_i position _
        dsimp only
        rw [parseEntry_append]
        cases parseEntry found (substrFrom input (position + 1)).length 0 .unknown none
            (substrFrom input (position + 1)) with
        | error error => rfl
        | ok entry => exact inductionHypothesis entry.1 entry.2

end HFListResultParser

/-- What a page lists does not depend on the pages before it. -/
theorem parseListResult_append (front : ListResult) (input : Text) :
    parseListResult input front = (parseListResult input {}).map front.append := by
  rw [parseListResult, parseListResult, ← HFListResultParser.parseEntries_append]
  congr 1
  rw [ListResult.append, List.append_nil, List.append_nil]

end Httpfs.Http.HuggingFace
