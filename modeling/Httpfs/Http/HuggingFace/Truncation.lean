import Httpfs.Http.HuggingFace.Scanning
import Httpfs.Http.HuggingFace.TreeText

/-!
# Truncated listings

The parser ends where the input does, also inside an entry.  A listing that is cut off
is refused only where a whole entry of it is, and otherwise read as a shorter one.
-/

namespace Httpfs.Http.HuggingFace

open Text

/-- No listing is read that lacks an end. -/
def RefusesTruncated (listing : Text) : Prop :=
  ∀ front back, listing = front ++ back → back ≠ [] →
    ∃ error, parseListResult front {} = .error error

namespace HFListResultParser

/-! ## Unclosed entries -/

/-- Without a closing brace an entry ends with the input, and nothing is added. -/
theorem scanEntry_of_unclosed {found : ListResult} {nested : Nat} {type : EntryType}
    {path : Option Text} {input : Text} (unclosed : '}' ∉ input) :
    scanEntry found nested type path input = .ok (found, []) := by
  induction input using scan_induction generalizing nested type path with
  | nil => exact scanEntry_nil ..
  | close rest _ => exact absurd List.mem_cons_self unclosed
  | opening rest inductionHypothesis =>
      rw [scanEntry_open]
      exact inductionHypothesis (mt (List.mem_cons_of_mem _) unclosed)
  | directory rest inductionHypothesis =>
      rw [scanEntry_directory]
      exact inductionHypothesis (mt (List.mem_append_right _) unclosed)
  | file rest inductionHypothesis =>
      rw [scanEntry_file]
      exact inductionHypothesis (mt (List.mem_append_right _) unclosed)
  | path rest inductionHypothesis =>
      rw [scanEntry_path]
      obtain ⟨front, restEq⟩ := exists_parseString_eq rest
      apply inductionHypothesis
      intro member
      apply unclosed
      rw [restEq]
      exact List.mem_append_right _ (List.mem_append_right _ member)
  | byte byte rest notClosing notOpening noToken inductionHypothesis =>
      rw [scanEntry_byte _ _ _ _ notClosing notOpening noToken]
      exact inductionHypothesis (mt (List.mem_cons_of_mem _) unclosed)

theorem parseString_cons {byte : Char} (notQuote : byte ≠ '"') (notEscape : byte ≠ '\\')
    (rest : Text) :
    parseString (byte :: rest) = (byte :: (parseString rest).1, (parseString rest).2) := by
  rw [parseString]
  · exact fun isQuote => notQuote isQuote
  · exact fun _ _ isEscape _ => notEscape isEscape

/-- A string that ends inside the input is the same whatever follows. -/
theorem parseString_append (input back : Text) :
    (parseString input).2 = [] ∨
      parseString (input ++ back) = ((parseString input).1, (parseString input).2 ++ back) := by
  induction input using parseString.induct with
  | case1 => exact .inl rfl
  | case2 rest => exact .inr (by rw [List.cons_append, parseString, parseString])
  | case3 escaped rest known result remaining stringEq inductionHypothesis =>
      rw [List.cons_append, List.cons_append, parseString, parseString, if_pos known, if_pos known]
      rcases inductionHypothesis with ended | same
      · exact .inl ended
      · exact .inr (by rw [same])
  | case4 escaped rest other result remaining stringEq inductionHypothesis =>
      rw [List.cons_append, List.cons_append, parseString, parseString, if_neg other, if_neg other]
      rcases inductionHypothesis with ended | same
      · exact .inl ended
      · exact .inr (by rw [← List.cons_append, same])
  | case5 byte rest notQuote notEscape result remaining stringEq inductionHypothesis =>
      cases rest with
      | nil =>
          left
          rw [parseString]
          · rfl
          · exact notQuote
          · exact notEscape
      | cons next rest =>
          have plain : byte ≠ '\\' := fun isEscape => notEscape next rest isEscape rfl
          rw [List.cons_append, parseString_cons notQuote plain, parseString_cons notQuote plain]
          rcases inductionHypothesis with ended | same
          · exact .inl ended
          · exact .inr (by rw [same])

/-- A token that only what follows completes has no brace in the input. -/
theorem brace_not_mem_of_token {token front back : Text} (isToken : token ∈ tokens)
    (starts : token <+: front ++ back) (cut : ¬ token <+: front) : '}' ∉ front := by
  rcases List.prefix_or_prefix_of_prefix starts (List.prefix_append front back) with whole | within
  · exact absurd whole cut
  · intro member
    have inToken := within.subset member
    have free : ∀ token ∈ tokens, '}' ∉ token := by decide
    exact free token isToken inToken

/-- A scan ends with the input, or it does the same whatever follows. -/
theorem scanEntry_append {found : ListResult} {nested : Nat} {type : EntryType}
    {path : Option Text} (front back : Text) :
    scanEntry found nested type path front = .ok (found, []) ∨
      scanEntry found nested type path (front ++ back) =
        (scanEntry found nested type path front).map (Prod.map id (· ++ back)) := by
  induction front using scan_induction generalizing nested type path with
  | nil => exact .inl (scanEntry_nil ..)
  | close rest inductionHypothesis =>
      cases nested with
      | zero =>
          right
          rw [List.cons_append, scanEntry_close, scanEntry_close]
          cases appendEntry found type path <;> rfl
      | succ nested =>
          rw [List.cons_append, scanEntry_close_nested, scanEntry_close_nested]
          exact inductionHypothesis
  | opening rest inductionHypothesis =>
      rw [List.cons_append, scanEntry_open, scanEntry_open]
      exact inductionHypothesis
  | directory rest inductionHypothesis =>
      rw [List.append_assoc, scanEntry_directory, scanEntry_directory]
      exact inductionHypothesis
  | file rest inductionHypothesis =>
      rw [List.append_assoc, scanEntry_file, scanEntry_file]
      exact inductionHypothesis
  | path rest inductionHypothesis =>
      rw [List.append_assoc, scanEntry_path, scanEntry_path]
      rcases parseString_append rest back with ended | same
      · left
        rw [ended, scanEntry_nil]
      · rw [same]
        exact inductionHypothesis
  | byte byte rest notClosing notOpening noToken inductionHypothesis =>
      by_cases cut : ∃ token ∈ tokens, token <+: (byte :: rest) ++ back
      · left
        obtain ⟨token, isToken, starts⟩ := cut
        exact scanEntry_of_unclosed (brace_not_mem_of_token isToken starts (noToken token isToken))
      · have noTokenThere : NoToken (byte :: (rest ++ back)) :=
          fun token member isPrefix => cut ⟨token, member, isPrefix⟩
        rw [List.cons_append, scanEntry_byte _ _ _ _ notClosing notOpening noToken,
          scanEntry_byte _ _ _ _ notClosing notOpening noTokenThere]
        exact inductionHypothesis

end HFListResultParser

open HFListResultParser

/-! ## Cut listings -/

/-- What is found is a beginning of what is found with more input. -/
def ListResult.Within (part whole : ListResult) : Prop :=
  part.files <+: whole.files ∧ part.directories <+: whole.directories

theorem within_of_parseListResult {found whole : ListResult} {input : Text}
    (parsed : parseListResult input found = .ok whole) : found.Within whole := by
  rw [parseListResult_append] at parsed
  cases added : parseListResult input {} with
  | error error =>
      rw [added] at parsed
      contradiction
  | ok result =>
      rw [added, Except.map, Except.ok.injEq] at parsed
      rw [← parsed]
      exact ⟨List.prefix_append .., List.prefix_append ..⟩

/-- Where a listing is read, every beginning of it is. -/
theorem parseListResult_of_append {found whole : ListResult} {front back : Text}
    (parsed : parseListResult (front ++ back) found = .ok whole) :
    ∃ part, parseListResult front found = .ok part ∧ part.Within whole := by
  induction length : front.length using Nat.strong_induction_on generalizing front found with
  | _ size inductionHypothesis =>
      by_cases opens : '{' ∈ front
      · obtain ⟨before, rest, rfl, free⟩ := List.eq_append_cons_of_mem opens
        have within := within_of_parseListResult parsed
        rw [List.append_assoc, List.cons_append, parseListResult_entry found free] at parsed
        rw [parseListResult_entry found free]
        rcases @scanEntry_append found 0 .unknown none rest back with ended | same
        · -- the input ends inside the entry, which is left out
          refine ⟨found, ?_, within⟩
          rw [ended]
          exact parseListResult_of_free found List.not_mem_nil
        · rw [same] at parsed
          cases scanned : scanEntry found 0 .unknown none rest with
          | error error =>
              rw [scanned] at parsed
              contradiction
          | ok entry =>
              rw [scanned] at parsed
              have shorter : entry.2.length < size := by
                have short := length_le_of_scanEntry scanned
                rw [← length, List.length_append, List.length_cons]
                omega
              exact inductionHypothesis _ shorter parsed rfl
      · exact ⟨found, parseListResult_of_free found opens, within_of_parseListResult parsed⟩

/-! ## Listings of a tree -/

theorem listingText_ne_nil (entries : List TreeEntry) : listingText entries ≠ [] :=
  List.cons_ne_nil _ _

/-- No listing is recognized as truncated.  Cut before the first closing brace, it has
no entries, and wherever a listing that is read is cut, it is read without its last
entries. -/
theorem not_refusesTruncated (entries : List TreeEntry) :
    ¬ RefusesTruncated (listingText entries) ∧
      (∀ front back, listingText entries = front ++ back → '}' ∉ front →
        parseListResult front {} = .ok {}) ∧
      ∀ whole, parseListResult (listingText entries) {} = .ok whole →
        ∀ front back, listingText entries = front ++ back →
          ∃ part, parseListResult front {} = .ok part ∧ part.Within whole := by
  have unclosed : ∀ front : Text, '}' ∉ front → parseListResult front {} = .ok {} := by
    intro front noBrace
    by_cases opens : '{' ∈ front
    · obtain ⟨before, rest, rfl, free⟩ := List.eq_append_cons_of_mem opens
      have unclosedRest : '}' ∉ rest := fun member =>
        noBrace (List.mem_append_right _ (List.mem_cons_of_mem _ member))
      rw [parseListResult_entry _ free, scanEntry_of_unclosed unclosedRest]
      exact parseListResult_of_free _ List.not_mem_nil
    · exact parseListResult_of_free _ opens
  refine ⟨?_, fun front _ _ noBrace => unclosed front noBrace, ?_⟩
  · intro refuses
    obtain ⟨error, refused⟩ := refuses [] (listingText entries) rfl (listingText_ne_nil entries)
    rw [unclosed [] List.not_mem_nil] at refused
    contradiction
  · intro whole parsed front back cut
    rw [cut] at parsed
    exact parseListResult_of_append parsed

/-- The listing of two files, cut behind the first, is read as that of one. -/
theorem second_file_cut_off :
    let listing := listingText [fileEntry "a".toList (by decide), fileEntry "b".toList (by decide)]
    let front := "[\x7b\"type\":\"file\",\"path\":\"a\"\x7d,\x7b\"type\":\"file\",\"pa".toList
    (front <+: listing ∧ front ≠ listing) ∧
      parseListResult listing {} = .ok ⟨["/a".toList, "/b".toList], []⟩ ∧
      parseListResult front {} = .ok ⟨["/a".toList], []⟩ := by
  decide

end Httpfs.Http.HuggingFace
