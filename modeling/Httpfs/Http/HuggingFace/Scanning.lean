import Httpfs.Http.HuggingFace.ListResult

/-!
# Scanning entries

An entry is scanned byte by byte, and no step needs more than the bytes that are left.
Each step is one equation: a brace, a token, or a byte that starts none.
-/

namespace Httpfs.Http.HuggingFace

open Text

namespace HFListResultParser

/-! ## Tokens -/

theorem consume_append (token rest : Text) : consume token (token ++ rest) = some rest := by
  rw [consume, if_pos (startsWith_append token rest), substrFrom_append]

theorem exists_of_consume {token input rest : Text} (consumed : consume token input = some rest) :
    input = token ++ rest := by
  rw [consume] at consumed
  split at consumed
  · rename_i starts
    obtain ⟨behind, rfl⟩ := startsWith_iff.mp starts
    rw [substrFrom_append, Option.some.injEq] at consumed
    rw [consumed]
  · contradiction

theorem consume_eq_none_iff {token input : Text} : consume token input = none ↔ ¬ token <+: input := by
  rw [consume, ← startsWith_iff]
  split <;> simp_all

/-- The tokens at which a scan stops. -/
def tokens : List Text :=
  ["\"type\":\"directory\"".toList, "\"type\":\"file\"".toList, "\"path\":\"".toList]

/-- No token starts here. -/
def NoToken (input : Text) : Prop :=
  ∀ token ∈ tokens, ¬ token <+: input

/-- What is left behind a string is part of the input. -/
theorem exists_parseString_eq (input : Text) : ∃ front, input = front ++ (parseString input).2 := by
  induction input using parseString.induct with
  | case1 => exact ⟨[], rfl⟩
  | case2 rest => exact ⟨['"'], by rw [parseString]; rfl⟩
  | case3 escaped rest known result remaining stringEq inductionHypothesis =>
      obtain ⟨front, eq⟩ := inductionHypothesis
      refine ⟨'\\' :: escaped :: front, ?_⟩
      rw [parseString, if_pos known]
      dsimp only
      rw [List.cons_append, List.cons_append, ← eq]
  | case4 escaped rest other result remaining stringEq inductionHypothesis =>
      obtain ⟨front, eq⟩ := inductionHypothesis
      refine ⟨'\\' :: front, ?_⟩
      rw [parseString, if_neg other]
      dsimp only
      rw [List.cons_append, ← eq]
  | case5 byte rest notQuote notEscape result remaining stringEq inductionHypothesis =>
      obtain ⟨front, eq⟩ := inductionHypothesis
      refine ⟨byte :: front, ?_⟩
      rw [parseString]
      · dsimp only
        rw [List.cons_append, ← eq]
      · exact notQuote
      · exact notEscape

theorem length_parseString_le (input : Text) : (parseString input).2.length ≤ input.length := by
  obtain ⟨front, eq⟩ := exists_parseString_eq input
  conv_rhs => rw [eq]
  rw [List.length_append]
  exact Nat.le_add_left _ _

/-! ## Steps -/

theorem length_lt_of_consume {token input rest : Text} (nonempty : token ≠ [])
    (consumed : consume token input = some rest) : rest.length < input.length := by
  have positive := List.length_pos_iff.mpr nonempty
  rw [exists_of_consume consumed, List.length_append]
  omega

/-- Steps beyond the bytes that are left change nothing. -/
theorem parseEntry_congr_steps {first second : Nat} {input : Text} (enough : input.length ≤ first)
    (enoughToo : input.length ≤ second) (found : ListResult) (nested : Nat) (type : EntryType)
    (path : Option Text) :
    parseEntry found first nested type path input =
      parseEntry found second nested type path input := by
  induction first generalizing second nested type path input with
  | zero =>
      obtain rfl := List.length_eq_zero_iff.mp (Nat.le_zero.mp enough)
      cases second <;> rfl
  | succ first inductionHypothesis =>
      cases input with
      | nil => cases second <;> rfl
      | cons byte rest =>
          cases second with
          | zero => exact absurd enoughToo (Nat.not_succ_le_zero _)
          | succ second =>
              have goesOn : ∀ {remaining : Text} (nested : Nat) (type : EntryType)
                  (path : Option Text), remaining.length < (byte :: rest).length →
                  parseEntry found first nested type path remaining =
                    parseEntry found second nested type path remaining := by
                intro remaining nested type path shorter
                exact inductionHypothesis (by omega) (by omega) nested type path
              have behind : rest.length < (byte :: rest).length := Nat.lt_succ_self _
              rw [parseEntry, parseEntry]
              split
              · split
                · exact goesOn _ _ _ behind
                · rfl
              · split
                · exact goesOn _ _ _ behind
                · split
                  · rename_i consumed
                    exact goesOn _ _ _ (length_lt_of_consume (by decide) consumed)
                  · split
                    · rename_i consumed
                      exact goesOn _ _ _ (length_lt_of_consume (by decide) consumed)
                    · split
                      · rename_i remaining consumed
                        have short := length_lt_of_consume (by decide) consumed
                        exact goesOn _ _ _ ((length_parseString_le remaining).trans_lt short)
                      · exact goesOn _ _ _ behind

/-- The scan from inside an entry on, with a step for each byte. -/
def scanEntry (found : ListResult) (nested : Nat) (type : EntryType) (path : Option Text)
    (input : Text) : Except ErrorData (ListResult × Text) :=
  parseEntry found input.length nested type path input

section

variable (found : ListResult) (nested : Nat) (type : EntryType) (path : Option Text)

theorem parseEntry_of_le {steps : Nat} {input : Text} (enough : input.length ≤ steps) :
    parseEntry found steps nested type path input = scanEntry found nested type path input :=
  parseEntry_congr_steps enough le_rfl found nested type path

theorem scanEntry_nil : scanEntry found nested type path [] = .ok (found, []) :=
  rfl

theorem scanEntry_close (rest : Text) :
    scanEntry found 0 type path ('}' :: rest) = (appendEntry found type path).map (·, rest) := by
  rw [scanEntry, List.length_cons, parseEntry, if_pos rfl, if_neg (Nat.lt_irrefl 0)]

theorem scanEntry_close_nested (rest : Text) :
    scanEntry found (nested + 1) type path ('}' :: rest) = scanEntry found nested type path rest := by
  rw [scanEntry, List.length_cons, parseEntry, if_pos rfl, if_pos (Nat.succ_pos nested)]
  rfl

theorem scanEntry_open (rest : Text) :
    scanEntry found nested type path ('{' :: rest) =
      scanEntry found (nested + 1) type path rest := by
  rw [scanEntry, List.length_cons, parseEntry, if_neg (by decide), if_pos rfl]
  rfl

/-- A byte that is no brace and starts no token is passed over. -/
theorem scanEntry_byte {byte : Char} {rest : Text} (notClosing : byte ≠ '}')
    (notOpening : byte ≠ '{') (noToken : NoToken (byte :: rest)) :
    scanEntry found nested type path (byte :: rest) = scanEntry found nested type path rest := by
  have missing : ∀ token ∈ tokens, consume token (byte :: rest) = none :=
    fun token member => consume_eq_none_iff.mpr (noToken token member)
  rw [scanEntry, List.length_cons, parseEntry, if_neg notClosing, if_neg notOpening,
    missing _ (by decide), missing _ (by decide), missing _ (by decide)]
  rfl

private theorem scanEntry_quote (rest : Text) :
    scanEntry found nested type path ('"' :: rest) =
      match consume "\"type\":\"directory\"".toList ('"' :: rest) with
      | some rest => scanEntry found nested .directory path rest
      | none =>
          match consume "\"type\":\"file\"".toList ('"' :: rest) with
          | some rest => scanEntry found nested .file path rest
          | none =>
              match consume "\"path\":\"".toList ('"' :: rest) with
              | some rest => scanEntry found nested type (some (parseString rest).1) (parseString rest).2
              | none => scanEntry found nested type path rest := by
  have enough : ∀ {token remaining : Text}, token ≠ [] →
      consume token ('"' :: rest) = some remaining → remaining.length ≤ rest.length :=
    fun nonempty consumed => Nat.le_of_lt_succ (length_lt_of_consume nonempty consumed)
  rw [scanEntry, List.length_cons, parseEntry, if_neg (by decide), if_neg (by decide)]
  cases isDirectory : consume "\"type\":\"directory\"".toList ('"' :: rest) with
  | some remaining => exact parseEntry_of_le found nested _ path (enough (by decide) isDirectory)
  | none =>
      cases isFile : consume "\"type\":\"file\"".toList ('"' :: rest) with
      | some remaining => exact parseEntry_of_le found nested _ path (enough (by decide) isFile)
      | none =>
          cases isPath : consume "\"path\":\"".toList ('"' :: rest) with
          | some remaining =>
              have short := (length_parseString_le remaining).trans (enough (by decide) isPath)
              exact parseEntry_of_le found nested type _ short
          | none => rfl

/-- Two tokens of which none starts the other are told apart. -/
private theorem consume_other {token other : Text} (differs : ¬ token <+: other)
    (differsToo : ¬ other <+: token) (rest : Text) : consume token (other ++ rest) = none := by
  rw [consume_eq_none_iff]
  intro starts
  rcases List.prefix_or_prefix_of_prefix starts (List.prefix_append other rest) with one | two
  · exact differs one
  · exact differsToo two

theorem scanEntry_directory (rest : Text) :
    scanEntry found nested type path ("\"type\":\"directory\"".toList ++ rest) =
      scanEntry found nested .directory path rest := by
  have quoted : "\"type\":\"directory\"".toList ++ rest =
      '"' :: ("type\":\"directory\"".toList ++ rest) := rfl
  have consumed := consume_append "\"type\":\"directory\"".toList rest
  rw [quoted] at consumed ⊢
  rw [scanEntry_quote, consumed]

theorem scanEntry_file (rest : Text) :
    scanEntry found nested type path ("\"type\":\"file\"".toList ++ rest) =
      scanEntry found nested .file path rest := by
  have quoted : "\"type\":\"file\"".toList ++ rest =
      '"' :: ("type\":\"file\"".toList ++ rest) := rfl
  have consumed := consume_append "\"type\":\"file\"".toList rest
  have other : consume "\"type\":\"directory\"".toList ("\"type\":\"file\"".toList ++ rest) =
      none := consume_other (by decide) (by decide) rest
  rw [quoted] at consumed other ⊢
  rw [scanEntry_quote, other, consumed]

theorem scanEntry_path (rest : Text) :
    scanEntry found nested type path ("\"path\":\"".toList ++ rest) =
      scanEntry found nested type (some (parseString rest).1) (parseString rest).2 := by
  have quoted : "\"path\":\"".toList ++ rest = '"' :: ("path\":\"".toList ++ rest) := rfl
  have consumed := consume_append "\"path\":\"".toList rest
  have noDirectory : consume "\"type\":\"directory\"".toList ("\"path\":\"".toList ++ rest) =
      none := consume_other (by decide) (by decide) rest
  have noFile : consume "\"type\":\"file\"".toList ("\"path\":\"".toList ++ rest) = none :=
    consume_other (by decide) (by decide) rest
  rw [quoted] at consumed noDirectory noFile ⊢
  rw [scanEntry_quote, noDirectory, noFile, consumed]

end

/-! ## Induction over a scan -/

/-- What holds of the end and is kept by every step holds of every input. -/
theorem scan_induction {motive : Text → Prop} (nil : motive [])
    (close : ∀ rest, motive rest → motive ('}' :: rest))
    (opening : ∀ rest, motive rest → motive ('{' :: rest))
    (directory : ∀ rest, motive rest → motive ("\"type\":\"directory\"".toList ++ rest))
    (file : ∀ rest, motive rest → motive ("\"type\":\"file\"".toList ++ rest))
    (path : ∀ rest, motive (parseString rest).2 → motive ("\"path\":\"".toList ++ rest))
    (byte : ∀ byte rest, byte ≠ '}' → byte ≠ '{' → NoToken (byte :: rest) → motive rest →
      motive (byte :: rest)) (input : Text) : motive input := by
  induction length : input.length using Nat.strong_induction_on generalizing input with
  | _ size inductionHypothesis =>
      have behind : ∀ {token rest : Text}, token ≠ [] → token ++ rest = input →
          rest.length < size := by
        intro token rest nonempty inputEq
        have positive := List.length_pos_iff.mpr nonempty
        rw [← length, ← inputEq, List.length_append]
        omega
      cases input with
      | nil => exact nil
      | cons first rest =>
          have next := inductionHypothesis rest.length (by rw [← length]; exact Nat.lt_succ_self _)
            rest rfl
          by_cases closes : first = '}'
          · exact closes ▸ close rest next
          by_cases opens : first = '{'
          · exact opens ▸ opening rest next
          by_cases starts : ∃ token ∈ tokens, token <+: first :: rest
          · obtain ⟨token, isToken, remaining, inputEq⟩ := starts
            rw [tokens, List.mem_cons, List.mem_cons, List.mem_singleton] at isToken
            rcases isToken with rfl | rfl | rfl
            · rw [← inputEq]
              exact directory remaining (inductionHypothesis _ (behind (by decide) inputEq) _ rfl)
            · rw [← inputEq]
              exact file remaining (inductionHypothesis _ (behind (by decide) inputEq) _ rfl)
            · rw [← inputEq]
              have shorter := (length_parseString_le remaining).trans_lt (behind (by decide) inputEq)
              exact path remaining (inductionHypothesis _ shorter _ rfl)
          · exact byte first rest closes opens (fun token member isPrefix =>
              starts ⟨token, member, isPrefix⟩) next

/-- What an entry leaves is not longer than the input. -/
theorem length_le_of_scanEntry {found result : ListResult} {nested : Nat} {type : EntryType}
    {path : Option Text} {input rest : Text}
    (scanned : scanEntry found nested type path input = .ok (result, rest)) :
    rest.length ≤ input.length := by
  induction input using scan_induction generalizing nested type path with
  | nil =>
      rw [scanEntry_nil, Except.ok.injEq, Prod.mk.injEq] at scanned
      rw [← scanned.2]
  | close remaining inductionHypothesis =>
      rw [List.length_cons]
      cases nested with
      | zero =>
          rw [scanEntry_close] at scanned
          cases appended : appendEntry found type path with
          | error error =>
              rw [appended] at scanned
              contradiction
          | ok entry =>
              rw [appended, Except.map, Except.ok.injEq, Prod.mk.injEq] at scanned
              rw [← scanned.2]
              exact Nat.le_succ _
      | succ nested =>
          rw [scanEntry_close_nested] at scanned
          exact (inductionHypothesis scanned).trans (Nat.le_succ _)
  | opening remaining inductionHypothesis =>
      rw [scanEntry_open] at scanned
      exact (inductionHypothesis scanned).trans (Nat.le_succ _)
  | directory remaining inductionHypothesis =>
      rw [scanEntry_directory] at scanned
      rw [List.length_append]
      exact (inductionHypothesis scanned).trans (Nat.le_add_left _ _)
  | file remaining inductionHypothesis =>
      rw [scanEntry_file] at scanned
      rw [List.length_append]
      exact (inductionHypothesis scanned).trans (Nat.le_add_left _ _)
  | path remaining inductionHypothesis =>
      rw [scanEntry_path] at scanned
      rw [List.length_append]
      exact ((inductionHypothesis scanned).trans (length_parseString_le remaining)).trans
        (Nat.le_add_left _ _)
  | byte byte remaining notClosing notOpening noToken inductionHypothesis =>
      rw [scanEntry_byte found nested type path notClosing notOpening noToken] at scanned
      exact (inductionHypothesis scanned).trans (Nat.le_succ _)

/-! ## Entry after entry -/

theorem findFrom_brace_of_free {input : Text} (free : '{' ∉ input) : findFrom '{' input 0 = none :=
  findFrom_none_of_eq (List.nil_append input).symm rfl free

theorem findFrom_brace {front rest : Text} (free : '{' ∉ front) :
    findFrom '{' (front ++ '{' :: rest) 0 = some front.length := by
  have found : findFrom '{' (front ++ '{' :: rest) 0 = some (0 + front.length) :=
    findFrom_of_eq (List.nil_append _).symm rfl free
  rw [found, Nat.zero_add]

theorem parseEntries_succ (steps : Nat) (found : ListResult) {front : Text} (free : '{' ∉ front)
    (rest : Text) :
    parseEntries (steps + 1) found (front ++ '{' :: rest) =
      scanEntry found 0 .unknown none rest >>= fun entry => parseEntries steps entry.1 entry.2 := by
  rw [parseEntries, findFrom_brace free]
  dsimp only
  rw [substrFrom_append_cons]
  rfl

theorem parseEntries_congr_steps {first second : Nat} {input : Text} (enough : input.length < first)
    (enoughToo : input.length < second) (found : ListResult) :
    parseEntries first found input = parseEntries second found input := by
  induction first generalizing second input found with
  | zero => exact absurd enough (Nat.not_lt_zero _)
  | succ first inductionHypothesis =>
      cases second with
      | zero => exact absurd enoughToo (Nat.not_lt_zero _)
      | succ second =>
          by_cases opens : '{' ∈ input
          · obtain ⟨front, rest, rfl, free⟩ := List.eq_append_cons_of_mem opens
            rw [List.length_append, List.length_cons] at enough enoughToo
            rw [parseEntries_succ first found free, parseEntries_succ second found free]
            cases scanned : scanEntry found 0 .unknown none rest with
            | error error => rfl
            | ok entry =>
                have short := length_le_of_scanEntry scanned
                exact inductionHypothesis (by omega) (by omega) entry.1
          · rw [parseEntries, parseEntries, findFrom_brace_of_free opens]

end HFListResultParser

open HFListResultParser

theorem parseListResult_of_free (found : ListResult) {input : Text} (free : '{' ∉ input) :
    parseListResult input found = .ok found := by
  rw [parseListResult, parseEntries, findFrom_brace_of_free free]

/-- The first entry of a page, and the others. -/
theorem parseListResult_entry (found : ListResult) {front : Text} (free : '{' ∉ front)
    (rest : Text) :
    parseListResult (front ++ '{' :: rest) found =
      scanEntry found 0 .unknown none rest >>= fun entry => parseListResult entry.2 entry.1 := by
  rw [parseListResult, parseEntries_succ _ found free]
  cases scanned : scanEntry found 0 .unknown none rest with
  | error error => rfl
  | ok entry =>
      have short := length_le_of_scanEntry scanned
      apply parseEntries_congr_steps _ (Nat.lt_succ_self _)
      rw [List.length_append, List.length_cons]
      omega

end Httpfs.Http.HuggingFace
