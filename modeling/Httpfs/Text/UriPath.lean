import Httpfs.Text.Percent

/-!
# Paths of URLs

The path of a URL goes from the authority to the first question mark or number
sign.  What it names is its percent-decoded form, in which an escape is one byte
and everything else is copied.
-/

namespace Httpfs.Text.UriPath

open Percent

def percentDecode : Text → Text
  | [] => []
  | '%' :: high :: low :: rest =>
      match hexValue? high, hexValue? low with
      | some upper, some lower => Char.ofNat (16 * upper + lower) :: percentDecode rest
      | _, _ => '%' :: percentDecode (high :: low :: rest)
  | byte :: rest => byte :: percentDecode rest

/-- Somewhere a percent sign and two hexadecimal digits. -/
def hasEscape : Text → Bool
  | [] => false
  | '%' :: high :: low :: rest =>
      (hexValue? high).isSome && (hexValue? low).isSome || hasEscape (high :: low :: rest)
  | _ :: rest => hasEscape rest

/-- The bytes at which a path ends. -/
def endsPath (byte : Char) : Bool :=
  byte == '?' || byte == '#'

/-- The path of an absolute URL. -/
def pathOf (url : Text) : Text :=
  let afterScheme := (url.dropWhile (· ≠ ':')).drop 3
  (afterScheme.dropWhile (· ≠ '/')).takeWhile fun byte => !endsPath byte

/-! ## Decoding -/

theorem percentDecode_percent (high low : Char) (rest : Text) :
    percentDecode ('%' :: high :: low :: rest) =
      match hexValue? high, hexValue? low with
      | some upper, some lower => Char.ofNat (16 * upper + lower) :: percentDecode rest
      | _, _ => '%' :: percentDecode (high :: low :: rest) :=
  rfl

theorem hasEscape_percent (high low : Char) (rest : Text) :
    hasEscape ('%' :: high :: low :: rest) =
      ((hexValue? high).isSome && (hexValue? low).isSome || hasEscape (high :: low :: rest)) :=
  rfl

/-- A byte that does not begin an escape stands for itself. -/
theorem percentDecode_byte {byte : Char} {rest : Text}
    (noEscape : ∀ high low tail, byte = '%' → rest = high :: low :: tail → False) :
    percentDecode (byte :: rest) = byte :: percentDecode rest := by
  rw [percentDecode]
  exact noEscape

theorem hasEscape_byte {byte : Char} {rest : Text}
    (noEscape : ∀ high low tail, byte = '%' → rest = high :: low :: tail → False) :
    hasEscape (byte :: rest) = hasEscape rest := by
  rw [hasEscape]
  exact noEscape

theorem percentDecode_cons {byte : Char} (other : byte ≠ '%') (rest : Text) :
    percentDecode (byte :: rest) = byte :: percentDecode rest :=
  percentDecode_byte fun _ _ _ eq => absurd eq other

/-- A percent sign begins an escape if two digits follow it. -/
theorem percentDecode_escape {high low : Char} {upper lower : Nat}
    (isUpper : hexValue? high = some upper) (isLower : hexValue? low = some lower)
    (rest : Text) :
    percentDecode ('%' :: high :: low :: rest) =
      Char.ofNat (16 * upper + lower) :: percentDecode rest := by
  rw [percentDecode_percent, isUpper, isLower]

theorem percentDecode_of_no_digit {high low : Char}
    (noEscape : ∀ upper lower, hexValue? high = some upper → hexValue? low = some lower → False)
    (rest : Text) :
    percentDecode ('%' :: high :: low :: rest) = '%' :: percentDecode (high :: low :: rest) := by
  rw [percentDecode_percent]
  split
  · rename_i isUpper isLower
    exact (noEscape _ _ isUpper isLower).elim
  · rfl

/-- Decoding goes over a text by escapes and by bytes that stand for themselves. -/
@[elab_as_elim]
theorem percentDecode_induction {motive : Text → Prop} (text : Text) (nil : motive [])
    (escape : ∀ high low rest upper lower, hexValue? high = some upper →
      hexValue? low = some lower → motive rest → motive ('%' :: high :: low :: rest))
    (noDigit : ∀ high low rest,
      (∀ upper lower, hexValue? high = some upper → hexValue? low = some lower → False) →
      motive (high :: low :: rest) → motive ('%' :: high :: low :: rest))
    (byte : ∀ byte rest, (∀ high low tail, byte = '%' → rest = high :: low :: tail → False) →
      motive rest → motive (byte :: rest)) : motive text :=
  percentDecode.induct motive nil
    (fun high low rest upper lower isLower isUpper =>
      escape high low rest upper lower isUpper isLower)
    noDigit byte text

theorem length_percentDecode_le (text : Text) : (percentDecode text).length ≤ text.length := by
  induction text using percentDecode_induction with
  | nil => exact le_rfl
  | escape high low rest upper lower isUpper isLower inductionHypothesis =>
      rw [percentDecode_escape isUpper isLower]
      simp only [List.length_cons]
      omega
  | noDigit high low rest noEscape inductionHypothesis =>
      rw [percentDecode_of_no_digit noEscape]
      exact Nat.succ_le_succ inductionHypothesis
  | byte byte rest noEscape inductionHypothesis =>
      rw [percentDecode_byte noEscape]
      exact Nat.succ_le_succ inductionHypothesis

/-- Decoding leaves exactly the texts without an escape as they are. -/
theorem percentDecode_eq_self_iff {text : Text} :
    percentDecode text = text ↔ hasEscape text = false := by
  induction text using percentDecode_induction with
  | nil => exact iff_of_true rfl rfl
  | escape high low rest upper lower isUpper isLower inductionHypothesis =>
      rw [percentDecode_escape isUpper isLower, hasEscape_percent, isUpper, isLower]
      apply iff_of_false
      · intro same
        have lengths := congrArg List.length same
        have bound := length_percentDecode_le rest
        simp only [List.length_cons] at lengths
        omega
      · simp
  | noDigit high low rest noEscape inductionHypothesis =>
      have notBoth : ((hexValue? high).isSome && (hexValue? low).isSome) = false := by
        rw [Bool.eq_false_iff]
        intro both
        rw [Bool.and_eq_true, Option.isSome_iff_exists, Option.isSome_iff_exists] at both
        rcases both with ⟨⟨upper, isUpper⟩, ⟨lower, isLower⟩⟩
        exact noEscape upper lower isUpper isLower
      rw [percentDecode_of_no_digit noEscape, hasEscape_percent, notBoth, Bool.false_or,
        ← inductionHypothesis, List.cons.injEq, eq_self, true_and]
  | byte byte rest noEscape inductionHypothesis =>
      rw [percentDecode_byte noEscape, hasEscape_byte noEscape, List.cons.injEq, eq_self, true_and,
        inductionHypothesis]

/-- An escape does not reach over a byte that is no digit. -/
theorem percentDecode_append_cons {byte : Char} (noDigit : hexValue? byte = none) (front back : Text) :
    percentDecode (front ++ byte :: back) = percentDecode front ++ percentDecode (byte :: back) := by
  induction front using percentDecode_induction with
  | nil => rfl
  | escape high low rest upper lower isUpper isLower inductionHypothesis =>
      simp only [List.cons_append, percentDecode_escape isUpper isLower, inductionHypothesis]
  | noDigit high low rest noEscape inductionHypothesis =>
      simp only [List.cons_append] at inductionHypothesis
      rw [List.cons_append, List.cons_append, List.cons_append,
        percentDecode_of_no_digit noEscape, percentDecode_of_no_digit noEscape,
        inductionHypothesis, List.cons_append]
  | byte first rest noEscape inductionHypothesis =>
      rw [List.cons_append]
      by_cases percent : first = '%'
      · subst percent
        cases rest with
        | nil =>
            cases back with
            | nil => rfl
            | cons second back =>
                rw [List.nil_append, percentDecode_percent, noDigit]
                rfl
        | cons second rest =>
            cases rest with
            | nil =>
                rw [List.cons_append, List.nil_append,
                  percentDecode_of_no_digit fun upper lower _ isLower => by
                    rw [noDigit] at isLower
                    contradiction]
                rw [List.cons_append, List.nil_append] at inductionHypothesis
                rw [inductionHypothesis]
                rfl
            | cons third rest => exact (noEscape second third rest rfl rfl).elim
      · rw [percentDecode_cons percent, percentDecode_cons percent, inductionHypothesis,
          List.cons_append]

theorem percentDecode_append_of_head {front back : Text}
    (noDigit : ∀ byte ∈ back.head?, hexValue? byte = none) :
    percentDecode (front ++ back) = percentDecode front ++ percentDecode back := by
  cases back with
  | nil => exact (congrArg percentDecode (List.append_nil front)).trans (List.append_nil _).symm
  | cons byte back => exact percentDecode_append_cons (noDigit byte rfl) front back

theorem hexValue?_of_endsPath {byte : Char} (isEnd : endsPath byte = true) :
    hexValue? byte = none := by
  rw [endsPath, Bool.or_eq_true, beq_iff_eq, beq_iff_eq] at isEnd
  rcases isEnd with rfl | rfl
  · decide
  · decide

/-! ## Cutting -/

theorem pathOf_append {scheme authority rest : Text} (noColon : ':' ∉ scheme)
    (noSlash : '/' ∉ authority) :
    pathOf (scheme ++ ':' :: '/' :: '/' :: (authority ++ '/' :: rest)) =
      ('/' :: rest).takeWhile fun byte => !endsPath byte := by
  rw [pathOf, dropWhile_ne_append noColon]
  simp only [List.drop_succ_cons, List.drop_zero]
  rw [dropWhile_ne_append noSlash]

/-- A text without a byte that ends a path is cut behind it, if at all. -/
theorem takeWhile_append_of_free {front : Text} (free : ∀ byte ∈ front, endsPath byte = false)
    (back : Text) :
    ((front ++ back).takeWhile fun byte => !endsPath byte) =
      front ++ back.takeWhile fun byte => !endsPath byte := by
  apply List.takeWhile_append_of_pos
  intro byte member
  rw [free byte member]
  rfl

/-- A text with a byte that ends a path is cut there. -/
theorem exists_cut_of_endsPath {text : Text} (ends : ¬ ∀ byte ∈ text, endsPath byte = false) :
    ∃ front byte back, text = front ++ byte :: back ∧ endsPath byte = true ∧
      ∀ rest, ((text ++ rest).takeWhile fun byte => !endsPath byte) = front := by
  obtain ⟨whole, every, stops⟩ := span_iff.mp
    ⟨rfl, (rfl : text.dropWhile (fun byte => !endsPath byte) = _)⟩
  cases rest : text.dropWhile fun byte => !endsPath byte with
  | nil =>
      exfalso
      apply ends
      intro byte member
      rw [whole, rest, List.append_nil] at member
      simpa using every byte member
  | cons byte back =>
      rw [rest] at whole stops
      have isEnd : endsPath byte = true := by simpa using stops byte rfl
      refine ⟨_, byte, back, whole, isEnd, ?_⟩
      intro after
      conv_lhs => rw [whole]
      rw [List.append_assoc, List.cons_append, List.takeWhile_append_of_pos every,
        List.takeWhile_cons_of_neg (by simp [isEnd]), List.append_nil]

/-- Put into a URL behind a front and before a query, a path is what the URL names
after the decoded front exactly if nothing in it ends a path or is an escape. -/
theorem percentDecode_cut_eq_iff {front path query : Text}
    (rooted : ∀ byte ∈ path.head?, byte = '/')
    (queryEnds : ∀ byte ∈ query.head?, endsPath byte = true) :
    percentDecode ((front ++ path ++ query).takeWhile fun byte => !endsPath byte) =
        percentDecode front ++ path ↔
      (∀ byte ∈ front ++ path, endsPath byte = false) ∧ hasEscape path = false := by
  have slashFree : ∀ text : Text, (∀ byte ∈ text.head?, byte = '/') →
      ∀ byte ∈ text.head?, hexValue? byte = none := by
    intro text isSlash byte isHead
    rw [isSlash byte isHead]
    decide
  have queryCut : (query.takeWhile fun byte => !endsPath byte) = [] := by
    cases query with
    | nil => rfl
    | cons byte rest => exact List.takeWhile_cons_of_neg (by simp [queryEnds byte rfl])
  by_cases frontFree : ∀ byte ∈ front, endsPath byte = false
  · by_cases pathFree : ∀ byte ∈ path, endsPath byte = false
    · have free : ∀ byte ∈ front ++ path, endsPath byte = false := by
        intro byte member
        rcases List.mem_append.mp member with inFront | inPath
        · exact frontFree byte inFront
        · exact pathFree byte inPath
      rw [takeWhile_append_of_free free, queryCut, List.append_nil,
        percentDecode_append_of_head (slashFree path rooted), List.append_cancel_left_eq,
        percentDecode_eq_self_iff]
      exact ⟨fun noEscape => ⟨free, noEscape⟩, And.right⟩
    · apply iff_of_false
      · rcases exists_cut_of_endsPath pathFree with ⟨kept, byte, back, pathEq, -, cuts⟩
        rw [List.append_assoc, takeWhile_append_of_free frontFree, cuts query]
        have keptRooted : ∀ byte ∈ kept.head?, byte = '/' := by
          intro first isHead
          apply rooted
          cases kept with
          | nil => contradiction
          | cons other kept => exact pathEq ▸ isHead
        rw [percentDecode_append_of_head (slashFree kept keptRooted), List.append_cancel_left_eq]
        intro same
        have bound := length_percentDecode_le kept
        have lengths := congrArg List.length (same.trans pathEq)
        rw [List.length_append, List.length_cons] at lengths
        omega
      · rintro ⟨free, -⟩
        exact pathFree fun byte member => free byte (List.mem_append_right front member)
  · apply iff_of_false
    · rcases exists_cut_of_endsPath frontFree with ⟨kept, byte, back, frontEq, isEnd, cuts⟩
      rw [List.append_assoc, cuts (path ++ query)]
      intro same
      have lengths := congrArg List.length same
      rw [frontEq, percentDecode_append_cons (hexValue?_of_endsPath isEnd), List.length_append,
        List.length_append, percentDecode_cons, List.length_cons] at lengths
      · omega
      · rintro rfl
        contradiction
    · rintro ⟨free, -⟩
      exact frontFree fun byte member => free byte (List.mem_append_left path member)

end Httpfs.Text.UriPath
