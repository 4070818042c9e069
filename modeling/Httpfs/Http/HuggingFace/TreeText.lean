import Httpfs.Http.HuggingFace.ListResult
import Httpfs.Text.Percent
import Httpfs.Text.Utf8

/-!
# Text of a tree listing

A page is the compact text of a JSON array of objects.  Every object has a type and a
path among its members.  The text of a value is that of its lexemes, in which a string
is whole and every other byte stands alone.
-/

namespace Httpfs.Http.HuggingFace

open Text

/-! ## Strings -/

/-- The byte that a letter behind a backslash stands for. -/
def escapedByte? : Char → Option Char
  | '"' => some '"'
  | '\\' => some '\\'
  | '/' => some '/'
  | 'b' => some '\x08'
  | 'f' => some '\x0c'
  | 'n' => some '\n'
  | 'r' => some '\r'
  | 't' => some '\t'
  | _ => none

def appendHexDigit (number : Option Nat) (digit : Char) : Option Nat := do
  let high ← number
  let low ← Percent.hexValue? digit
  pure (16 * high + low)

/-- The number that hexadecimal digits write. -/
def hexNumber? (digits : Text) : Option Nat :=
  digits.foldl appendHexDigit (some 0)

/-- A byte of a string that stands for itself, or an escape. -/
inductive StringPiece
  | byte (byte : Char) (plain : byte ≠ '"' ∧ byte ≠ '\\' ∧ 32 ≤ byte.toNat)
  | escape (letter byte : Char) (known : escapedByte? letter = some byte)
  | unicode (digits : Text) (char : Char) (four : digits.length = 4)
      (number : hexNumber? digits = some char.toNat)
  | surrogates (high low : Text) (char : Char) (four : high.length = 4 ∧ low.length = 4)
      (numbers : ∃ upper lower, hexNumber? high = some (0xd800 + upper) ∧ upper < 0x400 ∧
        hexNumber? low = some (0xdc00 + lower) ∧ lower < 0x400 ∧
        char.toNat = 0x10000 + 0x400 * upper + lower)

namespace StringPiece

def text : StringPiece → Text
  | .byte value _ => [value]
  | .escape letter _ _ => ['\\', letter]
  | .unicode digits _ _ _ => '\\' :: 'u' :: digits
  | .surrogates high low _ _ _ => '\\' :: 'u' :: (high ++ '\\' :: 'u' :: low)

/-- The bytes that a piece stands for. -/
def decoded : StringPiece → Text
  | .byte value _ => [value]
  | .escape _ value _ => [value]
  | .unicode _ char _ _ => utf8Bytes char
  | .surrogates _ _ char _ _ => utf8Bytes char

end StringPiece

/-- What stands between the quotes of a string. -/
abbrev JsonString := List StringPiece

namespace JsonString

def text (value : JsonString) : Text :=
  value.flatMap StringPiece.text

def decoded (value : JsonString) : Text :=
  value.flatMap StringPiece.decoded

end JsonString

/-! ## Values -/

/-- A byte of a number or of `true`, `false` and `null`. -/
def isLiteralByte (byte : Char) : Bool :=
  byte.isAlphanum || byte == '+' || byte == '-' || byte == '.'

inductive Json
  | literal (text : Text) (bytes : ∀ byte ∈ text, isLiteralByte byte = true)
  | string (value : JsonString)
  | array (elements : List Json)
  | object (members : List (JsonString × Json))

inductive Lexeme
  | byte (byte : Char)
  | string (value : JsonString)

def Lexeme.text : Lexeme → Text
  | .byte value => [value]
  | .string value => '"' :: (value.text ++ ['"'])

def lexemesText (lexemes : List Lexeme) : Text :=
  lexemes.flatMap Lexeme.text

mutual

def Json.lexemes : Json → List Lexeme
  | .literal text _ => text.map .byte
  | .string value => [.string value]
  | .array elements => .byte '[' :: (elementsLexemes elements ++ [.byte ']'])
  | .object members => .byte '{' :: (membersLexemes members ++ [.byte '}'])

def elementsLexemes : List Json → List Lexeme
  | [] => []
  | [element] => element.lexemes
  | element :: next :: rest => element.lexemes ++ .byte ',' :: elementsLexemes (next :: rest)

def membersLexemes : List (JsonString × Json) → List Lexeme
  | [] => []
  | [(name, value)] => .string name :: .byte ':' :: value.lexemes
  | (name, value) :: next :: rest =>
      .string name :: .byte ':' :: (value.lexemes ++ .byte ',' :: membersLexemes (next :: rest))

end

/-! ## Entries -/

def EntryType.word : EntryType → Text
  | .file => "file".toList
  | .directory => "directory".toList
  | .unknown => []

/-- The members with a name. -/
def membersNamed (name : Text) (members : List (JsonString × Json)) : List (JsonString × Json) :=
  members.filter fun member => member.1.decoded = name

/-- An object with one type and one path, among any other members. -/
structure TreeEntry where
  members : List (JsonString × Json)
  type : EntryType
  path : JsonString
  hasType : ∃ name written, membersNamed "type".toList members = [(name, .string written)] ∧
    written.decoded = type.word
  hasPath : ∃ name, membersNamed "path".toList members = [(name, .string path)]
  known : type ≠ .unknown

def TreeEntry.json (entry : TreeEntry) : Json :=
  .object entry.members

/-- The compact text of an array of entries. -/
def listingText (entries : List TreeEntry) : Text :=
  lexemesText (Json.array (entries.map TreeEntry.json)).lexemes

/-- An entry as it is to be found. -/
def TreeEntry.listed (entry : TreeEntry) : ListResult :=
  match entry.type with
  | .directory => ⟨[], ['/' :: entry.path.decoded]⟩
  | _ => ⟨['/' :: entry.path.decoded], []⟩

def listedEntries : List TreeEntry → ListResult
  | [] => {}
  | entry :: rest => entry.listed.append (listedEntries rest)

/-! ## Plain entries -/

/-- Bytes that stand for themselves. -/
def letters (text : Text)
    (plain : ∀ byte ∈ text, byte ≠ '"' ∧ byte ≠ '\\' ∧ 32 ≤ byte.toNat) : JsonString :=
  text.attach.map fun letter => .byte letter.1 (plain letter.1 letter.2)

theorem plain_type : ∀ byte ∈ "type".toList, byte ≠ '"' ∧ byte ≠ '\\' ∧ 32 ≤ byte.toNat := by
  decide

theorem plain_file : ∀ byte ∈ "file".toList, byte ≠ '"' ∧ byte ≠ '\\' ∧ 32 ≤ byte.toNat := by
  decide

theorem plain_path : ∀ byte ∈ "path".toList, byte ≠ '"' ∧ byte ≠ '\\' ∧ 32 ≤ byte.toNat := by
  decide

theorem file_known : (EntryType.file : EntryType) ≠ .unknown := by
  decide

/-- A file with a path of letters, and nothing else. -/
def fileEntry (path : Text)
    (plain : ∀ byte ∈ path, byte ≠ '"' ∧ byte ≠ '\\' ∧ 32 ≤ byte.toNat) : TreeEntry where
  members := [
    (letters "type".toList plain_type, .string (letters "file".toList plain_file)),
    (letters "path".toList plain_path, .string (letters path plain))]
  type := .file
  path := letters path plain
  hasType := ⟨_, _, rfl, rfl⟩
  hasPath := ⟨_, rfl⟩
  known := file_known

end Httpfs.Http.HuggingFace
