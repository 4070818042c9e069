import Httpfs.Http.HuggingFace.LinkHeader
import Httpfs.Http.HuggingFace.Truncation
import Httpfs.Http.HuggingFace.TreeText

/-!
# Reading a tree listing

The parser counts the braces of strings, too, and takes every member for the type or
the path that is written like one, also inside of another member.  An entry is read
as it is where its braces are balanced all the same and the last such members are its
own.
-/

namespace Httpfs.Http.HuggingFace

open HFListResultParser Text

/-! ## What the parser sees -/

/-- The depth behind a text, if no brace of it closes more than is open. -/
def depthAfter : Nat → Text → Option Nat
  | depth, [] => some depth
  | depth, byte :: rest =>
      if byte = '}' then
        if depth = 0 then none else depthAfter (depth - 1) rest
      else if byte = '{' then depthAfter (depth + 1) rest
      else depthAfter depth rest

/-- A name that ends with a quote and a word, its own opening quote included. -/
def Names (word : Text) (name : JsonString) : Prop :=
  '"' :: word <:+ '"' :: name.text

instance (word : Text) (name : JsonString) : Decidable (Names word name) :=
  inferInstanceAs (Decidable (_ <:+ _))

/-- A text that is passed over, a type or a path. -/
inductive Reading
  | text (text : Text)
  | type (type : EntryType)
  | path (value : JsonString)

namespace Reading

def text? : Reading → Text
  | .text passed => passed
  | _ => []

def type? : Reading → Option EntryType
  | .type found => some found
  | _ => none

def path? : Reading → Option JsonString
  | .path value => some value
  | _ => none

end Reading

/-- A member that is taken for a path or for a type. -/
def lookalike (name value : JsonString) : Option Reading :=
  if Names "path".toList name then some (.path value)
  else if Names "type".toList name then
    if value.text = "directory".toList then some (.type .directory)
    else if value.text = "file".toList then some (.type .file)
    else none
  else none

def readings : List Lexeme → List Reading
  | [] => []
  | .string name :: .byte ':' :: .string value :: rest =>
      match lookalike name value with
      | some reading => .text (Lexeme.string name).text :: reading :: readings rest
      | none => .text (Lexeme.string name).text :: .text [':'] :: readings (.string value :: rest)
  | lexeme :: rest => .text lexeme.text :: readings rest

/-- The bytes of a piece where only quotes and backslashes are unescaped. -/
def StringPiece.read : StringPiece → Text
  | .escape letter _ _ => if letter = '"' ∨ letter = '\\' then [letter] else ['\\', letter]
  | piece => piece.text

def JsonString.read (value : JsonString) : Text :=
  value.flatMap StringPiece.read

/-- The last type that is read. -/
def typeAfter (type : EntryType) (seen : List Reading) : EntryType :=
  seen.foldl (fun type reading => reading.type?.getD type) type

/-- The last path that is read. -/
def pathAfter (path : Option Text) (seen : List Reading) : Option Text :=
  seen.foldl (fun path reading => (reading.path?.map JsonString.read).or path) path

def TreeEntry.readings (entry : TreeEntry) : List Reading :=
  HuggingFace.readings (membersLexemes entry.members)

/-- An entry that the parser reads as it is. -/
structure TreeEntry.Readable (entry : TreeEntry) : Prop where
  balanced : depthAfter 0 (entry.readings.flatMap Reading.text?) = some 0
  type : typeAfter .unknown entry.readings = entry.type
  path : pathAfter none entry.readings = some entry.path.decoded

/-! ## Strings -/

/-- What is no digit is not in a number. -/
theorem not_mem_of_hexNumber? {digits : Text} {number : Nat}
    (written : hexNumber? digits = some number) {byte : Char}
    (noDigit : Percent.hexValue? byte = none) : byte ∉ digits := by
  rw [hexNumber?] at written
  generalize some 0 = start at written
  induction digits generalizing start with
  | nil => exact List.not_mem_nil
  | cons digit digits inductionHypothesis =>
      rw [List.foldl_cons] at written
      rw [List.mem_cons]
      rintro (rfl | later)
      · have stuck : appendHexDigit start byte = none := by
          rw [appendHexDigit, noDigit]
          cases start <;> rfl
        have missing : ∀ digits : Text, digits.foldl appendHexDigit none = none := by
          intro digits
          induction digits with
          | nil => rfl
          | cons digit digits inductionHypothesis => exact inductionHypothesis
        rw [stuck, missing] at written
        contradiction
      · exact inductionHypothesis _ written later

/-- In a piece a quote stands behind a backslash. -/
theorem StringPiece.text_eq_of_quote {piece : StringPiece} (quote : '"' ∈ piece.text) :
    piece.text = ['\\', '"'] := by
  have notDigit : Percent.hexValue? '"' = none := by decide
  cases piece with
  | byte byte plain =>
      rw [StringPiece.text, List.mem_singleton] at quote
      exact absurd quote.symm plain.1
  | escape letter byte known =>
      rw [StringPiece.text, List.mem_cons, List.mem_singleton] at quote
      rcases quote with isEscape | isLetter
      · exact absurd isEscape (by decide)
      · subst isLetter
        rfl
  | unicode digits char four number =>
      exfalso
      rw [StringPiece.text, List.mem_cons, List.mem_cons] at quote
      rcases quote with isEscape | isLetter | inDigits
      · exact absurd isEscape (by decide)
      · exact absurd isLetter (by decide)
      · exact not_mem_of_hexNumber? number notDigit inDigits
  | surrogates high low char four numbers =>
      exfalso
      rw [StringPiece.text, List.mem_cons, List.mem_cons, List.mem_append, List.mem_cons,
        List.mem_cons] at quote
      obtain ⟨upper, lower, isHigh, -, isLow, -⟩ := numbers
      rcases quote with isEscape | isLetter | inHigh | isEscape | isLetter | inLow
      · exact absurd isEscape (by decide)
      · exact absurd isLetter (by decide)
      · exact not_mem_of_hexNumber? isHigh notDigit inHigh
      · exact absurd isEscape (by decide)
      · exact absurd isLetter (by decide)
      · exact not_mem_of_hexNumber? isLow notDigit inLow

/-- In a string, too. -/
theorem JsonString.exists_of_quote {value : JsonString} {front back : Text}
    (cut : value.text = front ++ '"' :: back) : ∃ before, front = before ++ ['\\'] := by
  induction value generalizing front with
  | nil => simp [JsonString.text] at cut
  | cons piece value inductionHypothesis =>
      rw [JsonString.text, List.flatMap_cons] at cut
      rcases cut_cases cut with ⟨rest, pieceEq, -⟩ | ⟨rest, frontEq, valueEq⟩
      · have quote : '"' ∈ piece.text := by
          rw [pieceEq]
          exact List.mem_append_right _ List.mem_cons_self
        rw [StringPiece.text_eq_of_quote quote] at pieceEq
        cases front with
        | nil => exact absurd (List.cons.inj pieceEq).1 (by decide)
        | cons first front =>
            obtain ⟨rfl, restEq⟩ := List.cons.inj pieceEq
            cases front with
            | nil => exact ⟨[], rfl⟩
            | cons second front =>
                have short := congrArg List.length (List.cons.inj restEq).2
                simp at short
      · obtain ⟨before, rfl⟩ := inductionHypothesis valueEq
        exact ⟨piece.text ++ before, by rw [frontEq, List.append_assoc]⟩

/-- Digits are no quotes and no backslashes. -/
theorem parseString_digits {digits : Text} {number : Nat}
    (written : hexNumber? digits = some number) (rest : Text) :
    parseString (digits ++ rest) = (digits ++ (parseString rest).1, (parseString rest).2) := by
  have noQuote : '"' ∉ digits := not_mem_of_hexNumber? written (by decide)
  have noEscape : '\\' ∉ digits := not_mem_of_hexNumber? written (by decide)
  clear written
  induction digits with
  | nil => rfl
  | cons digit digits inductionHypothesis =>
      rw [List.mem_cons, not_or] at noQuote noEscape
      rw [List.cons_append, parseString_cons (Ne.symm noQuote.1) (Ne.symm noEscape.1),
        inductionHypothesis noQuote.2 noEscape.2]
      rfl

theorem parseString_escape {letter : Char} (other : ¬ (letter = '"' ∨ letter = '\\'))
    (rest : Text) :
    parseString ('\\' :: letter :: rest) =
      ('\\' :: letter :: (parseString rest).1, (parseString rest).2) := by
  rw [parseString, if_neg other]
  rw [not_or] at other
  rw [parseString_cons other.1 other.2]

/-- `ParseString` reads a piece at a time. -/
theorem parseString_piece (piece : StringPiece) (rest : Text) :
    parseString (piece.text ++ rest) = (piece.read ++ (parseString rest).1, (parseString rest).2) := by
  cases piece with
  | byte byte plain => exact parseString_cons plain.1 plain.2.1 rest
  | escape letter byte known =>
      rw [StringPiece.text, StringPiece.read]
      split
      · rename_i isRead
        rw [List.cons_append, List.cons_append, List.nil_append, parseString, if_pos isRead]
        rfl
      · rename_i other
        exact parseString_escape other rest
  | unicode digits char four number =>
      rw [StringPiece.text, List.cons_append, List.cons_append, parseString_escape (by decide),
        parseString_digits number]
      rfl
  | surrogates high low char four numbers =>
      rw [StringPiece.text, List.cons_append, List.cons_append, List.append_assoc,
        List.cons_append, List.cons_append, parseString_escape (by decide)]
      have read : (StringPiece.surrogates high low char four numbers).read =
          '\\' :: 'u' :: (high ++ '\\' :: 'u' :: low) := rfl
      rw [read]
      obtain ⟨upper, lower, isHigh, -, isLow, -⟩ := numbers
      rw [parseString_digits isHigh, parseString_escape (by decide), parseString_digits isLow]
      simp only [List.cons_append, List.append_assoc]

/-- `ParseString` reads a string up to its closing quote. -/
theorem parseString_text (value : JsonString) (rest : Text) :
    parseString (value.text ++ '"' :: rest) = (value.read, rest) := by
  induction value with
  | nil => rfl
  | cons piece value inductionHypothesis =>
      rw [JsonString.text, List.flatMap_cons, List.append_assoc, parseString_piece]
      rw [JsonString.text] at inductionHypothesis
      rw [inductionHypothesis, JsonString.read, JsonString.read, List.flatMap_cons]

/-! ## Passing over texts -/

theorem depthAfter_append (depth : Nat) (front back : Text) :
    depthAfter depth (front ++ back) = (depthAfter depth front).bind (depthAfter · back) := by
  induction front generalizing depth with
  | nil => rfl
  | cons byte front inductionHypothesis =>
      rw [List.cons_append, depthAfter, depthAfter]
      split
      · split
        · rfl
        · exact inductionHypothesis _
      · split
        · exact inductionHypothesis _
        · exact inductionHypothesis _

theorem depthAfter_of_free {text : Text} (noOpening : '{' ∉ text) (noClosing : '}' ∉ text)
    (depth : Nat) : depthAfter depth text = some depth := by
  induction text with
  | nil => rfl
  | cons byte text inductionHypothesis =>
      rw [List.mem_cons, not_or] at noOpening noClosing
      rw [depthAfter, if_neg (Ne.symm noClosing.1), if_neg (Ne.symm noOpening.1)]
      exact inductionHypothesis noOpening.2 noClosing.2

/-- Every token starts with a quote. -/
theorem noToken_of_ne {byte : Char} (notQuote : byte ≠ '"') (rest : Text) :
    NoToken (byte :: rest) := by
  intro token isToken starts
  have quoted : ∀ token ∈ tokens, token.head? = some '"' := by decide
  have first := quoted token isToken
  cases token with
  | nil => contradiction
  | cons letter token =>
      obtain rfl := Option.some.inj first
      exact notQuote (List.cons_prefix_cons.mp starts).1.symm

/-- A text in which no token starts is passed over, and only its braces count. -/
theorem scanEntry_text {found : ListResult} {nested depth : Nat} {type : EntryType}
    {path : Option Text} {passed back : Text}
    (noToken : ∀ front rest, passed = front ++ '"' :: rest → NoToken ('"' :: (rest ++ back)))
    (balanced : depthAfter nested passed = some depth) :
    scanEntry found nested type path (passed ++ back) = scanEntry found depth type path back := by
  induction passed generalizing nested with
  | nil =>
      rw [depthAfter, Option.some.injEq] at balanced
      rw [balanced, List.nil_append]
  | cons byte passed inductionHypothesis =>
      have later : ∀ front rest, passed = front ++ '"' :: rest → NoToken ('"' :: (rest ++ back)) :=
        fun front rest cut => noToken (byte :: front) rest (congrArg (byte :: ·) cut)
      rw [depthAfter] at balanced
      rw [List.cons_append]
      split at balanced
      · rename_i closes
        rw [closes]
        cases nested with
        | zero => contradiction
        | succ outer =>
            rw [scanEntry_close_nested]
            exact inductionHypothesis later balanced
      · rename_i notClosing
        split at balanced
        · rename_i opens
          rw [opens, scanEntry_open]
          exact inductionHypothesis later balanced
        · rename_i notOpening
          have none : NoToken (byte :: (passed ++ back)) := by
            by_cases quote : byte = '"'
            · rw [quote]
              exact noToken [] passed (congrArg (· :: passed) quote)
            · exact noToken_of_ne quote _
          rw [scanEntry_byte _ _ _ _ notClosing notOpening none]
          exact inductionHypothesis later balanced

/-! ## Tokens in strings -/

/-- A token starts at a quote of a string only if its word is the rest of it. -/
theorem token_in_string_iff {value : JsonString} {front rest word tail back : Text}
    (cut : '"' :: value.text = front ++ '"' :: rest) (nonempty : word ≠ [])
    (wordPlain : '"' ∉ word ∧ '\\' ∉ word) :
    '"' :: (word ++ '"' :: tail) <+: '"' :: (rest ++ '"' :: back) ↔ rest = word ∧ tail <+: back := by
  rw [List.prefix_cons_inj]
  by_cases quote : '"' ∈ rest
  · obtain ⟨first, second, rfl, free⟩ := List.eq_append_cons_of_mem quote
    rw [List.append_assoc, List.cons_append, append_cons_isPrefix_iff wordPlain.1 free]
    constructor
    · rintro ⟨rfl, -⟩
      -- before this quote the string has a backslash, which is not part of the word
      exfalso
      have escaped : ∃ before, value.text = before ++ word ++ '"' :: second := by
        cases front with
        | nil => exact ⟨[], (List.cons.inj cut).2⟩
        | cons byte front =>
            refine ⟨front ++ ['"'], ?_⟩
            have valueEq := (List.cons.inj cut).2
            rw [valueEq, List.append_assoc, List.append_assoc]
            rfl
      obtain ⟨before, valueEq⟩ := escaped
      obtain ⟨earlier, earlierEq⟩ := JsonString.exists_of_quote valueEq
      have last := congrArg List.getLast? earlierEq
      rw [List.getLast?_append_of_ne_nil _ nonempty, List.getLast?_concat] at last
      exact wordPlain.2 (List.mem_of_getLast? last)
    · rintro ⟨rfl, -⟩
      exact absurd (List.mem_append_right _ List.mem_cons_self) wordPlain.1
  · rw [append_cons_isPrefix_iff wordPlain.1 quote]
    constructor
    · rintro ⟨rfl, starts⟩
      exact ⟨rfl, starts⟩
    · rintro ⟨rfl, starts⟩
      exact ⟨rfl, starts⟩

/-- The word of each token, and what follows its quote. -/
def tokenParts : List (Text × Text) :=
  [("type".toList, ":\"directory\"".toList), ("type".toList, ":\"file\"".toList),
    ("path".toList, ":\"".toList)]

theorem exists_parts_of_token {token : Text} (isToken : token ∈ tokens) :
    ∃ parts ∈ tokenParts, token = '"' :: (parts.1 ++ '"' :: parts.2) := by
  have asParts : tokens = tokenParts.map fun parts => '"' :: (parts.1 ++ '"' :: parts.2) := by
    decide
  rw [asParts, List.mem_map] at isToken
  obtain ⟨parts, member, rfl⟩ := isToken
  exact ⟨parts, member, rfl⟩

theorem word_plain {parts : Text × Text} (member : parts ∈ tokenParts) :
    parts.1 ≠ [] ∧ '"' ∉ parts.1 ∧ '\\' ∉ parts.1 := by
  have plain : ∀ parts ∈ tokenParts, parts.1 ≠ [] ∧ '"' ∉ parts.1 ∧ '\\' ∉ parts.1 := by decide
  exact plain parts member

/-- What may follow a string. -/
def separators : Text :=
  [',', ':', ']', '}']

theorem noToken_of_separator {byte : Char} (separates : byte ∈ separators) (rest : Text) :
    NoToken ('"' :: byte :: rest) := by
  intro token isToken starts
  have letters : ∀ token ∈ tokens, ∀ byte ∈ separators, ¬ ['"', byte] <+: token := by decide
  have longer : ∀ token ∈ tokens, 2 ≤ token.length := by decide
  apply letters token isToken byte separates
  exact List.prefix_of_prefix_length_le ⟨rest, rfl⟩ starts (longer token isToken)

/-- In a string that is not taken for a member no token starts. -/
theorem noToken_in_string {value : JsonString} {back : Text}
    (free : ∀ parts ∈ tokenParts, Names parts.1 value → ¬ parts.2 <+: back)
    (separated : NoToken ('"' :: back)) (front rest : Text)
    (cut : (Lexeme.string value).text = front ++ '"' :: rest) : NoToken ('"' :: (rest ++ back)) := by
  have grouped : (Lexeme.string value).text = ('"' :: value.text) ++ ['"'] := rfl
  rw [grouped] at cut
  rcases cut_cases cut with ⟨inside, insideEq, rfl⟩ | ⟨inside, -, closingEq⟩
  · intro token isToken starts
    obtain ⟨parts, member, rfl⟩ := exists_parts_of_token isToken
    obtain ⟨nonempty, plain⟩ := word_plain member
    rw [List.append_assoc, List.singleton_append,
      token_in_string_iff insideEq nonempty plain] at starts
    apply free parts member _ starts.2
    rw [Names, insideEq, starts.1]
    exact List.suffix_append _ _
  · have short := congrArg List.length closingEq
    rw [List.length_append, List.length_cons, List.length_cons, List.length_nil] at short
    have noRest : rest = [] := List.length_eq_zero_iff.mp (by omega)
    rw [noRest]
    exact separated

/-- Before the word of a lookalike no token starts. -/
theorem noToken_before_word {value : JsonString} {before word back : Text}
    (named : '"' :: value.text = before ++ '"' :: word) (front rest : Text)
    (cut : before = front ++ '"' :: rest) :
    NoToken ('"' :: (rest ++ '"' :: (word ++ '"' :: back))) := by
  intro token isToken starts
  obtain ⟨parts, member, rfl⟩ := exists_parts_of_token isToken
  obtain ⟨nonempty, plain⟩ := word_plain member
  have insideEq : '"' :: value.text = front ++ '"' :: (rest ++ '"' :: word) := by
    rw [named, cut, List.append_assoc]
    rfl
  have grouped : rest ++ '"' :: (word ++ '"' :: back) = (rest ++ '"' :: word) ++ '"' :: back := by
    rw [List.append_assoc]
    rfl
  rw [grouped, token_in_string_iff insideEq nonempty plain] at starts
  apply plain.1
  rw [← starts.1]
  exact List.mem_append_right _ List.mem_cons_self

/-- Up to the token of a lookalike its name is passed over. -/
theorem scanEntry_name {found : ListResult} {nested depth : Nat} {type : EntryType}
    {path : Option Text} {name : JsonString} {word : Text} (back : Text) (named : Names word name)
    (noBrace : '{' ∉ word ∧ '}' ∉ word)
    (balanced : depthAfter nested (Lexeme.string name).text = some depth) :
    scanEntry found nested type path ((Lexeme.string name).text ++ back) =
      scanEntry found depth type path ('"' :: (word ++ '"' :: back)) := by
  obtain ⟨before, nameEq⟩ := named
  have textEq : (Lexeme.string name).text = before ++ ('"' :: (word ++ ['"'])) := by
    have grouped : (Lexeme.string name).text = ('"' :: name.text) ++ ['"'] := rfl
    rw [grouped, ← nameEq, List.append_assoc]
    rfl
  have wordFree : ∀ depth, depthAfter depth ('"' :: (word ++ ['"'])) = some depth := by
    apply depthAfter_of_free
    · simp [noBrace.1]
    · simp [noBrace.2]
  rw [textEq, depthAfter_append] at balanced
  cases inner : depthAfter nested before with
  | none =>
      rw [inner] at balanced
      contradiction
  | some middle =>
      rw [inner, Option.bind_some, wordFree, Option.some.injEq] at balanced
      subst balanced
      have behind : '"' :: (word ++ ['"']) ++ back = '"' :: (word ++ '"' :: back) := by
        simp only [List.cons_append, List.append_assoc, List.nil_append]
      rw [textEq, List.append_assoc, behind]
      apply scanEntry_text _ inner
      intro front rest cut
      exact noToken_before_word nameEq.symm front rest cut

/-! ## Lexemes -/

/-- Strings are followed by separators, and other bytes are no quotes. -/
def Spaced : List Lexeme → Prop
  | [] => True
  | .byte byte :: rest => byte ≠ '"' ∧ Spaced rest
  | .string _ :: rest =>
      (∀ next ∈ rest.head?, ∃ byte ∈ separators, next = .byte byte) ∧ Spaced rest

theorem lexemesText_cons (lexeme : Lexeme) (lexemes : List Lexeme) :
    lexemesText (lexeme :: lexemes) = lexeme.text ++ lexemesText lexemes :=
  List.flatMap_cons

theorem lexemesText_append (front back : List Lexeme) :
    lexemesText (front ++ back) = lexemesText front ++ lexemesText back :=
  List.flatMap_append

theorem Spaced.tail {lexeme : Lexeme} {lexemes : List Lexeme} (spaced : Spaced (lexeme :: lexemes)) :
    Spaced lexemes := by
  cases lexeme with
  | byte byte => exact spaced.2
  | string value => exact spaced.2

/-- Behind a string comes a separator, also at the end of an entry. -/
theorem Spaced.separated {value : JsonString} {lexemes : List Lexeme}
    (spaced : Spaced (.string value :: lexemes)) (rest : Text) :
    NoToken ('"' :: (lexemesText lexemes ++ '}' :: rest)) := by
  cases lexemes with
  | nil => exact noToken_of_separator (by decide) rest
  | cons next lexemes =>
      obtain ⟨byte, separates, rfl⟩ := spaced.1 next rfl
      exact noToken_of_separator separates _

/-- The scan of a member that is taken for a type or a path. -/
theorem scanEntry_lookalike {found : ListResult} {nested depth : Nat} {type : EntryType}
    {path : Option Text} {name value : JsonString} {reading : Reading}
    (taken : lookalike name value = some reading)
    (balanced : depthAfter nested (Lexeme.string name).text = some depth) (rest : Text) :
    scanEntry found nested type path
        ((Lexeme.string name).text ++ ':' :: ((Lexeme.string value).text ++ rest)) =
      scanEntry found depth (reading.type?.getD type)
        ((reading.path?.map JsonString.read).or path) rest := by
  rw [lookalike] at taken
  have quoted : (Lexeme.string value).text ++ rest = '"' :: (value.text ++ '"' :: rest) := by
    rw [Lexeme.text]
    simp only [List.cons_append, List.append_assoc, List.nil_append]
  rw [quoted]
  split at taken
  · rename_i named
    obtain rfl := Option.some.inj taken
    rw [scanEntry_name _ named (by decide) balanced]
    have scanned := scanEntry_path found depth type path (value.text ++ '"' :: rest)
    rw [parseString_text] at scanned
    exact scanned
  · split at taken
    · rename_i named
      split at taken
      · rename_i isDirectory
        obtain rfl := Option.some.inj taken
        rw [scanEntry_name _ named (by decide) balanced, isDirectory]
        exact scanEntry_directory found depth type path rest
      · split at taken
        · rename_i isFile
          obtain rfl := Option.some.inj taken
          rw [scanEntry_name _ named (by decide) balanced, isFile]
          exact scanEntry_file found depth type path rest
        · contradiction
    · contradiction

/-- A string that starts with a word and a quote is that word. -/
theorem text_eq_of_prefix {value : JsonString} {word rest : Text} (nonempty : word ≠ [])
    (wordPlain : '"' ∉ word ∧ '\\' ∉ word)
    (starts : '"' :: (word ++ ['"']) <+: (Lexeme.string value).text ++ rest) :
    value.text = word := by
  have quoted : (Lexeme.string value).text ++ rest = '"' :: (value.text ++ '"' :: rest) := by
    rw [Lexeme.text]
    simp only [List.cons_append, List.append_assoc, List.nil_append]
  have whole : '"' :: value.text = [] ++ '"' :: value.text := rfl
  rw [quoted, token_in_string_iff whole nonempty wordPlain] at starts
  exact starts.1

/-- No token starts in the name of another member. -/
theorem not_prefix_of_other {name value : JsonString} (other : lookalike name value = none)
    {parts : Text × Text} (member : parts ∈ tokenParts) (named : Names parts.1 name) (rest : Text) :
    ¬ parts.2 <+: ':' :: ((Lexeme.string value).text ++ rest) := by
  have notPath : ¬ Names "path".toList name := by
    intro isPath
    rw [lookalike, if_pos isPath] at other
    contradiction
  have notType : Names "type".toList name → value.text ≠ "directory".toList ∧
      value.text ≠ "file".toList := by
    intro isType
    rw [lookalike, if_neg notPath, if_pos isType] at other
    constructor
    · intro isDirectory
      rw [if_pos isDirectory] at other
      contradiction
    · intro isFile
      rw [isFile, if_neg (by decide), if_pos rfl] at other
      contradiction
  rw [tokenParts, List.mem_cons, List.mem_cons, List.mem_singleton] at member
  rcases member with rfl | rfl | rfl
  · intro starts
    apply (notType named).1
    have behind := (List.cons_prefix_cons.mp starts).2
    exact text_eq_of_prefix (by decide) (by decide) behind
  · intro starts
    apply (notType named).2
    have behind := (List.cons_prefix_cons.mp starts).2
    exact text_eq_of_prefix (by decide) (by decide) behind
  · exact absurd named notPath

/-- No string follows the colon behind a string that is no name. -/
theorem not_prefix_of_no_member {value : JsonString} {lexemes : List Lexeme}
    (spaced : Spaced (.string value :: lexemes))
    (noMember : ∀ named rest, lexemes = .byte ':' :: .string named :: rest → False)
    {parts : Text × Text} (member : parts ∈ tokenParts) (rest : Text) :
    ¬ parts.2 <+: lexemesText lexemes ++ '}' :: rest := by
  have colon : ∀ parts ∈ tokenParts, [':', '"'] <+: parts.2 := by decide
  intro starts
  have begins := (colon parts member).trans starts
  cases lexemes with
  | nil => exact absurd (List.cons_prefix_cons.mp begins).1 (by decide)
  | cons next lexemes =>
      obtain ⟨byte, -, rfl⟩ := spaced.1 next rfl
      obtain ⟨rfl, quote⟩ := List.cons_prefix_cons.mp begins
      cases lexemes with
      | nil => exact absurd (List.cons_prefix_cons.mp quote).1 (by decide)
      | cons behind lexemes =>
          cases behind with
          | string named => exact noMember named lexemes rfl
          | byte other =>
              have isQuote := (List.cons_prefix_cons.mp quote).1
              exact spaced.2.2.1 isQuote.symm

theorem text?_of_lookalike {name value : JsonString} {reading : Reading}
    (taken : lookalike name value = some reading) : reading.text? = [] := by
  rw [lookalike] at taken
  split at taken
  · obtain rfl := Option.some.inj taken
    rfl
  · split at taken
    · split at taken
      · obtain rfl := Option.some.inj taken
        rfl
      · split at taken
        · obtain rfl := Option.some.inj taken
          rfl
        · contradiction
    · contradiction

theorem exists_of_depthAfter_append {nested depth : Nat} {front back : Text}
    (balanced : depthAfter nested (front ++ back) = some depth) :
    ∃ middle, depthAfter nested front = some middle ∧ depthAfter middle back = some depth := by
  rw [depthAfter_append] at balanced
  exact Option.bind_eq_some_iff.mp balanced

/-- The lexemes of an entry are scanned up to its closing brace. -/
theorem scanEntry_lexemes {found : ListResult} {nested depth : Nat} {type : EntryType}
    {path : Option Text} {lexemes : List Lexeme} (spaced : Spaced lexemes) (rest : Text)
    (balanced : depthAfter nested ((readings lexemes).flatMap Reading.text?) = some depth) :
    scanEntry found nested type path (lexemesText lexemes ++ '}' :: rest) =
      scanEntry found depth (typeAfter type (readings lexemes)) (pathAfter path (readings lexemes))
        ('}' :: rest) := by
  induction lexemes using readings.induct generalizing nested type path with
  | case1 =>
      rw [readings, List.flatMap_nil, depthAfter, Option.some.injEq] at balanced
      subst balanced
      rfl
  | case2 name value lexemes reading taken inductionHypothesis =>
      have seen : readings (.string name :: .byte ':' :: .string value :: lexemes) =
          .text (Lexeme.string name).text :: reading :: readings lexemes := by
        rw [readings, taken]
      rw [seen, List.flatMap_cons, List.flatMap_cons, text?_of_lookalike taken,
        List.nil_append] at balanced
      obtain ⟨middle, named, behind⟩ := exists_of_depthAfter_append balanced
      have text : lexemesText (.string name :: .byte ':' :: .string value :: lexemes) ++ '}' :: rest =
          (Lexeme.string name).text ++ ':' ::
            ((Lexeme.string value).text ++ (lexemesText lexemes ++ '}' :: rest)) := by
        rw [lexemesText_cons, lexemesText_cons, lexemesText_cons, List.append_assoc,
          List.append_assoc, List.append_assoc]
        rfl
      rw [text, scanEntry_lookalike taken named, seen,
        inductionHypothesis spaced.tail.tail.tail behind]
      rfl
  | case3 name value lexemes other inductionHypothesis =>
      have seen : readings (.string name :: .byte ':' :: .string value :: lexemes) =
          .text (Lexeme.string name).text :: .text [':'] ::
            readings (.string value :: lexemes) := by
        rw [readings, other]
      rw [seen, List.flatMap_cons, List.flatMap_cons] at balanced
      obtain ⟨middle, named, behind⟩ := exists_of_depthAfter_append balanced
      have text : lexemesText (.string name :: .byte ':' :: .string value :: lexemes) ++ '}' :: rest =
          (Lexeme.string name).text ++ ':' ::
            (lexemesText (.string value :: lexemes) ++ '}' :: rest) := by
        rw [lexemesText_cons, lexemesText_cons, List.append_assoc, List.append_assoc]
        rfl
      have noToken : ∀ front remaining, (Lexeme.string name).text = front ++ '"' :: remaining →
          NoToken ('"' :: (remaining ++ ':' ::
            (lexemesText (.string value :: lexemes) ++ '}' :: rest))) := by
        apply noToken_in_string
        · intro parts member isNamed
          rw [lexemesText_cons, List.append_assoc]
          exact not_prefix_of_other other member isNamed _
        · exact noToken_of_separator (by decide) _
      have colon : depthAfter middle [':'] = some middle :=
        depthAfter_of_free (by decide) (by decide) middle
      obtain ⟨same, behindColon, behind⟩ := exists_of_depthAfter_append behind
      obtain rfl := Option.some.inj (colon.symm.trans behindColon)
      rw [text, scanEntry_text noToken named,
        scanEntry_byte _ _ _ _ (by decide) (by decide) (noToken_of_ne (by decide) _), seen,
        inductionHypothesis spaced.tail.tail behind]
      rfl
  | case4 lexeme lexemes noMember inductionHypothesis =>
      have seen : readings (lexeme :: lexemes) = .text lexeme.text :: readings lexemes := by
        rw [readings]
        exact noMember
      rw [seen, List.flatMap_cons] at balanced
      obtain ⟨middle, passed, behind⟩ := exists_of_depthAfter_append balanced
      have noToken : ∀ front remaining, lexeme.text = front ++ '"' :: remaining →
          NoToken ('"' :: (remaining ++ (lexemesText lexemes ++ '}' :: rest))) := by
        cases lexeme with
        | byte byte =>
            intro front remaining cut
            have member : '"' ∈ [byte] := by
              rw [show [byte] = front ++ '"' :: remaining from cut]
              exact List.mem_append_right _ List.mem_cons_self
            exact absurd (List.mem_singleton.mp member).symm spaced.1
        | string value =>
            apply noToken_in_string
            · intro parts member _
              apply not_prefix_of_no_member spaced _ member
              intro named remaining isMember
              exact noMember value named remaining rfl isMember
            · exact spaced.separated rest
      rw [lexemesText_cons, List.append_assoc, scanEntry_text noToken passed, seen,
        inductionHypothesis spaced.tail behind]
      rfl

/-! ## Lexemes of values -/

theorem ne_quote_of_isLiteralByte {byte : Char} (literal : isLiteralByte byte = true) :
    byte ≠ '"' := by
  rintro rfl
  contradiction

theorem spaced_literal {text : Text} (bytes : ∀ byte ∈ text, isLiteralByte byte = true)
    {tail : List Lexeme} (spaced : Spaced tail) : Spaced (text.map .byte ++ tail) := by
  induction text with
  | nil => exact spaced
  | cons byte text inductionHypothesis =>
      rw [List.forall_mem_cons] at bytes
      exact ⟨ne_quote_of_isLiteralByte bytes.1, inductionHypothesis bytes.2⟩

/-- A separator that is followed by spaced lexemes. -/
def Behind (tail : List Lexeme) : Prop :=
  (∀ next ∈ tail.head?, ∃ byte ∈ separators, next = .byte byte) ∧ Spaced tail

theorem Spaced.behind {byte : Char} {tail : List Lexeme} (spaced : Spaced tail)
    (separates : byte ∈ separators) : Behind (.byte byte :: tail) := by
  have notQuote : ∀ byte ∈ separators, byte ≠ '"' := by decide
  constructor
  · intro next first
    obtain rfl := Option.some.inj first
    exact ⟨byte, separates, rfl⟩
  · exact ⟨notQuote byte separates, spaced⟩

mutual

/-- Behind every string of a value comes a separator. -/
theorem spaced_value (value : Json) {tail : List Lexeme} (behind : Behind tail) :
    Spaced (value.lexemes ++ tail) := by
  cases value with
  | literal text bytes =>
      rw [Json.lexemes]
      exact spaced_literal bytes behind.2
  | string value =>
      rw [Json.lexemes]
      exact behind
  | array elements =>
      rw [Json.lexemes, List.cons_append, List.append_assoc]
      exact ⟨by decide, spaced_elements elements (behind.2.behind (by decide))⟩
  | object members =>
      rw [Json.lexemes, List.cons_append, List.append_assoc]
      exact ⟨by decide, spaced_members members (behind.2.behind (by decide))⟩

theorem spaced_elements (elements : List Json) {tail : List Lexeme} (behind : Behind tail) :
    Spaced (elementsLexemes elements ++ tail) := by
  match elements with
  | [] => exact behind.2
  | [element] => exact spaced_value element behind
  | element :: next :: rest =>
      rw [elementsLexemes, List.append_assoc, List.cons_append]
      exact spaced_value element ((spaced_elements (next :: rest) behind).behind (by decide))

theorem spaced_members (members : List (JsonString × Json)) {tail : List Lexeme}
    (behind : Behind tail) : Spaced (membersLexemes members ++ tail) := by
  match members with
  | [] => exact behind.2
  | [(name, value)] =>
      rw [membersLexemes]
      exact (spaced_value value behind).behind (by decide)
  | (name, value) :: next :: rest =>
      rw [membersLexemes, List.cons_append, List.cons_append, List.append_assoc, List.cons_append]
      have comma : ',' ∈ separators := by decide
      have others := (spaced_members (next :: rest) behind).behind comma
      exact (spaced_value value others).behind (by decide)

end

/-! ## Listings -/

theorem appendEntry_listed (entry : TreeEntry) (found : ListResult) :
    appendEntry found entry.type (some entry.path.decoded) = .ok (found.append entry.listed) := by
  rw [TreeEntry.listed]
  cases isType : entry.type with
  | file =>
      rw [appendEntry, ListResult.append]
      dsimp only
      rw [List.append_nil]
  | directory =>
      rw [appendEntry, ListResult.append]
      dsimp only
      rw [List.append_nil]
  | unknown => exact absurd isType entry.known

theorem append_listed_ne (entry : TreeEntry) (found : ListResult) :
    found ≠ found.append entry.listed := by
  intro same
  have files := congrArg (List.length ∘ ListResult.files) same
  have directories := congrArg (List.length ∘ ListResult.directories) same
  rw [TreeEntry.listed] at files directories
  cases isType : entry.type with
  | file => simp [isType, ListResult.append] at files
  | directory => simp [isType, ListResult.append] at directories
  | unknown => exact entry.known isType

/-- Only the type and the path of an entry append it. -/
theorem appendEntry_eq_listed_iff (entry : TreeEntry) (found : ListResult) (type : EntryType)
    (path : Option Text) :
    appendEntry found type path = .ok (found.append entry.listed) ↔
      type = entry.type ∧ path = some entry.path.decoded := by
  constructor
  · intro appended
    have isKnown := entry.known
    rw [TreeEntry.listed] at appended
    cases path with
    | none => contradiction
    | some path =>
        cases type with
        | unknown => contradiction
        | file =>
            cases isType : entry.type with
            | file => simpa [isType, appendEntry, ListResult.append] using appended
            | directory => simp [isType, appendEntry, ListResult.append] at appended
            | unknown => exact absurd isType isKnown
        | directory =>
            cases isType : entry.type with
            | file => simp [isType, appendEntry, ListResult.append] at appended
            | directory => simpa [isType, appendEntry, ListResult.append] using appended
            | unknown => exact absurd isType isKnown
  · rintro ⟨rfl, rfl⟩
    exact appendEntry_listed entry found

/-- The scan of an entry that no brace closes before its end. -/
theorem parseListResult_entry_eq (entry : TreeEntry) {depth : Nat}
    (closes : depthAfter 0 (entry.readings.flatMap Reading.text?) = some depth)
    (found : ListResult) {front : Text} (free : '{' ∉ front) (rest : Text) :
    parseListResult (front ++ (lexemesText entry.json.lexemes ++ rest)) found =
      scanEntry found depth (typeAfter .unknown entry.readings) (pathAfter none entry.readings)
        ('}' :: rest) >>= fun entry => parseListResult entry.2 entry.1 := by
  have text : lexemesText entry.json.lexemes ++ rest =
      '{' :: (lexemesText (membersLexemes entry.members) ++ '}' :: rest) := by
    rw [TreeEntry.json, Json.lexemes, lexemesText_cons, lexemesText_append, List.append_assoc,
      List.append_assoc]
    rfl
  have spaced : Spaced (membersLexemes entry.members) := by
    have alone : Spaced (membersLexemes entry.members ++ []) :=
      spaced_members entry.members ⟨by simp, trivial⟩
    rwa [List.append_nil] at alone
  rw [text, parseListResult_entry found free, scanEntry_lexemes spaced rest closes]
  rfl

/-- A readable entry is appended, and the scan goes on behind it. -/
theorem TreeEntry.Readable.parseListResult_eq {entry : TreeEntry} (readable : entry.Readable)
    (found : ListResult) {front : Text} (free : '{' ∉ front) (rest : Text) :
    parseListResult (front ++ (lexemesText entry.json.lexemes ++ rest)) found =
      parseListResult rest (found.append entry.listed) := by
  rw [parseListResult_entry_eq entry readable.balanced found free, scanEntry_close, readable.type,
    readable.path, appendEntry_listed]
  rfl

theorem listedEntries_cons (found : ListResult) (entry : TreeEntry) (rest : List TreeEntry) :
    (found.append entry.listed).append (listedEntries rest) =
      found.append (listedEntries (entry :: rest)) := by
  rw [listedEntries, ListResult.append, ListResult.append, ListResult.append, ListResult.append]
  dsimp only
  rw [List.append_assoc, List.append_assoc]

theorem parseListResult_elements {entries : List TreeEntry}
    (readable : ∀ entry ∈ entries, entry.Readable) (found : ListResult) {front rest : Text}
    (free : '{' ∉ front) (restFree : '{' ∉ rest) :
    parseListResult (front ++ (lexemesText (elementsLexemes (entries.map TreeEntry.json)) ++ rest))
        found = .ok (found.append (listedEntries entries)) := by
  induction entries generalizing found front with
  | nil =>
      have noBrace : '{' ∉ front ++ rest := by
        rw [List.mem_append]
        exact not_or.mpr ⟨free, restFree⟩
      have nothing : found.append (listedEntries []) = found := by
        rw [listedEntries, ListResult.append, List.append_nil, List.append_nil]
      rw [nothing]
      exact parseListResult_of_free found noBrace
  | cons entry entries inductionHypothesis =>
      rw [List.forall_mem_cons] at readable
      cases entries with
      | nil =>
          have last : listedEntries [entry] = entry.listed := by
            rw [listedEntries, listedEntries, ListResult.append, List.append_nil, List.append_nil]
          rw [List.map_cons, List.map_nil, elementsLexemes,
            readable.1.parseListResult_eq found free rest, last]
          exact parseListResult_of_free _ restFree
      | cons next entries =>
          have text : lexemesText (elementsLexemes ((entry :: next :: entries).map TreeEntry.json)) ++
              rest = lexemesText entry.json.lexemes ++ ([','] ++
                (lexemesText (elementsLexemes ((next :: entries).map TreeEntry.json)) ++ rest)) := by
            rw [List.map_cons, List.map_cons, elementsLexemes, lexemesText_append, lexemesText_cons,
              List.append_assoc, List.append_assoc]
            rfl
          rw [text, readable.1.parseListResult_eq found free,
            inductionHypothesis readable.2 _ (by decide), listedEntries_cons]

/-- A listing of readable entries is read as it is. -/
theorem parseListResult_of_readable {entries : List TreeEntry}
    (readable : ∀ entry ∈ entries, entry.Readable) (found : ListResult) :
    parseListResult (listingText entries) found = .ok (found.append (listedEntries entries)) := by
  have text : listingText entries =
      ['['] ++ (lexemesText (elementsLexemes (entries.map TreeEntry.json)) ++ [']']) := by
    rw [listingText, Json.lexemes, lexemesText_cons, lexemesText_append]
    rfl
  rw [text]
  exact parseListResult_elements readable found (by decide) (by decide)

/-- An entry alone that no brace closes before its end is read as it is only if it is
readable. -/
theorem readable_of_parseListResult {entry : TreeEntry} {depth : Nat}
    (closes : depthAfter 0 (entry.readings.flatMap Reading.text?) = some depth) {found : ListResult}
    (parsed : parseListResult (listingText [entry]) found = .ok (found.append entry.listed)) :
    entry.Readable := by
  have text : listingText [entry] = ['['] ++ (lexemesText entry.json.lexemes ++ [']']) := by
    rw [listingText, Json.lexemes, lexemesText_cons, lexemesText_append]
    rfl
  rw [text, parseListResult_entry_eq entry closes found (by decide)] at parsed
  cases depth with
  | zero =>
      rw [scanEntry_close] at parsed
      cases appended : appendEntry found (typeAfter .unknown entry.readings)
          (pathAfter none entry.readings) with
      | error error =>
          rw [appended] at parsed
          contradiction
      | ok result =>
          rw [appended] at parsed
          have ended : parseListResult [']'] result = .ok (found.append entry.listed) := parsed
          rw [parseListResult_of_free result (by decide), Except.ok.injEq] at ended
          rw [ended, appendEntry_eq_listed_iff] at appended
          exact ⟨closes, appended.1, appended.2⟩
  | succ depth =>
      rw [scanEntry_close_nested, scanEntry_of_unclosed (by decide)] at parsed
      have ended : parseListResult [] found = .ok (found.append entry.listed) := parsed
      rw [parseListResult_of_free found List.not_mem_nil, Except.ok.injEq] at ended
      exact absurd ended (append_listed_ne entry found)

/-- Listings of readable entries are read as they are.  Of an entry alone that no brace
closes before its end, this holds exactly if it is readable. -/
theorem parseListResult_listingText (entries : List TreeEntry) (found : ListResult) :
    ((∀ entry ∈ entries, entry.Readable) →
        parseListResult (listingText entries) found = .ok (found.append (listedEntries entries))) ∧
      ∀ entry depth, entries = [entry] →
        depthAfter 0 (entry.readings.flatMap Reading.text?) = some depth →
          (parseListResult (listingText entries) found =
            .ok (found.append (listedEntries entries)) ↔ entry.Readable) := by
  constructor
  · exact fun readable => parseListResult_of_readable readable found
  · rintro entry depth rfl closes
    have last : listedEntries [entry] = entry.listed := by
      rw [listedEntries, listedEntries, ListResult.append, List.append_nil, List.append_nil]
    rw [last]
    constructor
    · exact readable_of_parseListResult closes
    · intro readable
      rw [← last]
      apply parseListResult_of_readable
      rw [List.forall_mem_singleton]
      exact readable

/-- A page with one file is read, behind what was found before. -/
theorem parseListResult_listingText_file :
    parseListResult (listingText [fileEntry "a".toList (by decide)]) ⟨["/b".toList], []⟩ =
      .ok ⟨["/b".toList, "/a".toList], []⟩ := by
  have readable : (fileEntry "a".toList (by decide)).Readable := by
    constructor
    · decide
    · decide
    · decide
  apply (parseListResult_listingText [fileEntry "a".toList (by decide)] ⟨["/b".toList], []⟩).1
  rw [List.forall_mem_singleton]
  exact readable

/-- A file with a title before its type and its path. -/
def titledFile (title : Text) (path : JsonString)
    (plain : ∀ byte ∈ title, byte ≠ '"' ∧ byte ≠ '\\' ∧ 32 ≤ byte.toNat) : TreeEntry where
  members := [
    (letters "title".toList (by decide), .string (letters title plain)),
    (letters "type".toList plain_type, .string (letters "file".toList plain_file)),
    (letters "path".toList plain_path, .string path)]
  type := .file
  path
  hasType := ⟨_, _, rfl, rfl⟩
  hasPath := ⟨_, rfl⟩
  known := file_known

/-- An escaped slash stays as it is written, and a brace in a title closes the entry. -/
theorem slash_and_brace_misread :
    let slash : JsonString := [.byte 'a' (by decide), .escape '/' '/' rfl, .byte 'b' (by decide)]
    let brace := "\x7d".toList
    parseListResult (listingText [titledFile [] slash (by decide)]) {} =
        .ok ⟨["/a\\/b".toList], []⟩ ∧
      listedEntries [titledFile [] slash (by decide)] = ⟨["/a/b".toList], []⟩ ∧
      parseListResult (listingText [titledFile brace slash (by decide)]) {} =
        .error (.io "Failed to parse list result") := by
  decide

end Httpfs.Http.HuggingFace
