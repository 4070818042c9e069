import Mathlib.Data.List.Basic
import Mathlib.Data.List.TakeWhile
import Mathlib.Tactic.Common

/-!
# Byte strings

A text is a list of bytes, each written as the character with its code.  The
searching and cutting operations are positional, as in the standard string
library; the lemmas replace a position by the pieces around it, and a proof
about a text built from known pieces uses only those.
-/

namespace Httpfs

/-- A byte string. -/
abbrev Text := List Char

namespace Text

instance : LawfulBEq Text :=
  inferInstanceAs (LawfulBEq (List Char))

/-- Whether every byte of a text has a property is decided by going over the text. -/
instance (priority := high) decidableForallMem (property : Char → Prop) [DecidablePred property]
    (text : Text) : Decidable (∀ byte ∈ text, property byte) :=
  List.decidableBAll property text

/-- Likewise for a byte that may be missing. -/
instance (priority := high) decidableForallMemOption (property : Char → Prop)
    [DecidablePred property] : (byte : Option Char) → Decidable (∀ found ∈ byte, property found)
  | none => isTrue nofun
  | some found => decidable_of_iff (property found) (by simp)

/-- Position of the first occurrence of a string. -/
def find (needle : Text) : Text → Option Nat
  | [] => if needle.isEmpty then some 0 else none
  | byte :: rest =>
      if needle.isPrefixOf (byte :: rest) then some 0
      else (find needle rest).map (· + 1)

@[simp]
theorem find_nil (needle : Text) : find needle [] = if needle.isEmpty then some 0 else none :=
  rfl

theorem find_cons (needle : Text) (byte : Char) (rest : Text) :
    find needle (byte :: rest) =
      if needle.isPrefixOf (byte :: rest) then some 0 else (find needle rest).map (· + 1) :=
  rfl

/-- Position of the first occurrence of a byte at or after `start`. -/
def findFrom (byte : Char) (text : Text) (start : Nat) : Option Nat :=
  ((text.drop start).findIdx? (· == byte)).map (start + ·)

/-- Position of the first byte that is one of `bytes`. -/
def findFirstOf (bytes : Text) (text : Text) : Option Nat :=
  text.findIdx? (· ∈ bytes)

/-- The `count` bytes from `start` on, or as many as there are. -/
def substr (text : Text) (start count : Nat) : Text :=
  (text.drop start).take count

/-- The bytes from `start` on. -/
def substrFrom (text : Text) (start : Nat) : Text :=
  text.drop start

def lower (text : Text) : Text :=
  text.map Char.toLower

def startsWith (text : Text) (front : Text) : Bool :=
  front.isPrefixOf text

def endsWith (text : Text) (back : Text) : Bool :=
  back.isSuffixOf text

def contains (text : Text) (needle : Text) : Bool :=
  (find needle text).isSome

/-- Whitespace of the C locale. -/
def isSpace (byte : Char) : Bool :=
  [' ', '\t', '\n', '\x0b', '\x0c', '\r'].contains byte

def trim (text : Text) : Text :=
  ((text.dropWhile isSpace).reverse.dropWhile isSpace).reverse

/-- The nonempty pieces between separators. -/
def split (separator : Char) (text : Text) : List Text :=
  (text.splitOn separator).filter fun piece => !piece.isEmpty

/-! ## Searching -/

theorem startsWith_iff {text front : Text} : startsWith text front = true ↔ front <+: text :=
  List.isPrefixOf_iff_prefix

theorem startsWith_append (front back : Text) : startsWith (front ++ back) front = true :=
  startsWith_iff.mpr (List.prefix_append front back)

/-- Up to a delimiter that occurs in neither front, the fronts are compared whole. -/
theorem append_cons_isPrefix_iff {delimiter : Char} {front other : Text}
    (free : delimiter ∉ front) (otherFree : delimiter ∉ other) {back rest : Text} :
    front ++ delimiter :: back <+: other ++ delimiter :: rest ↔
      front = other ∧ back <+: rest := by
  induction front generalizing other with
  | nil =>
      cases other with
      | nil => simp [List.cons_prefix_cons]
      | cons first other =>
          rw [List.nil_append, List.cons_append, List.cons_prefix_cons]
          constructor
          · rintro ⟨rfl, _⟩
            exact absurd List.mem_cons_self otherFree
          · rintro ⟨impossible, _⟩
            contradiction
  | cons byte front inductionHypothesis =>
      cases other with
      | nil =>
          rw [List.nil_append, List.cons_append, List.cons_prefix_cons]
          constructor
          · rintro ⟨rfl, _⟩
            exact absurd List.mem_cons_self free
          · rintro ⟨impossible, _⟩
            contradiction
      | cons first other =>
          rw [List.cons_append, List.cons_append, List.cons_prefix_cons,
            inductionHypothesis (mt (List.mem_cons_of_mem _) free)
              (mt (List.mem_cons_of_mem _) otherFree), List.cons.injEq, and_assoc]

/-- A string whose first byte does not occur earlier is found where it stands. -/
theorem find_append {byte : Char} {needle front back : Text} (free : byte ∉ front) :
    find (byte :: needle) (front ++ (byte :: needle) ++ back) = some front.length := by
  induction front with
  | nil => simp [find_cons]
  | cons first rest inductionHypothesis =>
      obtain ⟨differs, free⟩ := not_or.mp (mt List.mem_cons.mpr free)
      simp only [List.cons_append] at inductionHypothesis ⊢
      rw [find_cons, inductionHypothesis free]
      simp [List.isPrefixOf, differs]

/-- The text around the first occurrence of a string. -/
theorem exists_of_find_eq_some {needle text : Text} {position : Nat}
    (found : find needle text = some position) :
    ∃ front back, text = front ++ needle ++ back ∧ front.length = position := by
  induction text generalizing position with
  | nil =>
      cases needle with
      | nil => exact ⟨[], [], rfl, by simpa using found⟩
      | cons byte needle => simp at found
  | cons byte rest inductionHypothesis =>
      rw [find_cons] at found
      split at found
      · rename_i here
        obtain ⟨back, eq⟩ := List.isPrefixOf_iff_prefix.mp here
        exact ⟨[], back, by simp [eq], by simpa using found⟩
      · obtain ⟨before, earlier, rfl⟩ := Option.map_eq_some_iff.mp found
        obtain ⟨front, back, rfl, rfl⟩ := inductionHypothesis earlier
        exact ⟨byte :: front, back, rfl, rfl⟩

/-- A string is found where it stands or earlier. -/
theorem exists_find_le (needle front back : Text) :
    ∃ position, find needle (front ++ (needle ++ back)) = some position ∧
      position ≤ front.length := by
  induction front with
  | nil =>
      refine ⟨0, ?_, le_rfl⟩
      cases found : needle ++ back with
      | nil =>
          obtain ⟨rfl, -⟩ := List.append_eq_nil_iff.mp found
          rfl
      | cons byte rest =>
          have here : needle.isPrefixOf (byte :: rest) = true := by
            rw [← found]
            exact List.isPrefixOf_iff_prefix.mpr (List.prefix_append needle back)
          rw [List.nil_append, find_cons, if_pos here]
  | cons byte front inductionHypothesis =>
      obtain ⟨position, found, bound⟩ := inductionHypothesis
      rw [List.cons_append, find_cons]
      split
      · exact ⟨0, rfl, Nat.zero_le _⟩
      · rw [found]
        exact ⟨position + 1, rfl, Nat.succ_le_succ bound⟩

/-- The first occurrence is the one that no earlier one overlaps or precedes. -/
theorem find_eq_some_iff {needle text : Text} {position : Nat} (nonempty : needle ≠ []) :
    find needle text = some position ↔
      ∃ front rest, text = front ++ (needle ++ rest) ∧ front.length = position ∧
        ¬ needle <:+: front ++ needle.dropLast := by
  have positive := List.length_pos_iff.mpr nonempty
  induction text generalizing position with
  | nil => simp [nonempty]
  | cons byte text inductionHypothesis =>
      rw [find_cons]
      split
      · rename_i here
        obtain ⟨rest, eq⟩ := List.isPrefixOf_iff_prefix.mp here
        constructor
        · rintro ⟨⟩
          refine ⟨[], rest, eq.symm, rfl, ?_⟩
          intro earlier
          have short := earlier.length_le
          rw [List.nil_append, List.length_dropLast] at short
          omega
        · rintro ⟨front, after, textEq, rfl, first⟩
          cases front with
          | nil => rfl
          | cons other front =>
              exfalso
              apply first
              have split : byte :: text =
                  (other :: front ++ needle.dropLast) ++ needle.getLast nonempty :: after := by
                conv_lhs => rw [textEq, ← List.dropLast_append_getLast nonempty]
                simp
              apply List.IsPrefix.isInfix
              apply List.prefix_of_prefix_length_le ⟨rest, eq⟩ ⟨_, split.symm⟩
              rw [List.length_append, List.length_cons, List.length_dropLast]
              omega
      · rename_i elsewhere
        have notPrefix : ¬ needle <+: byte :: text :=
          fun isPrefix => elsewhere (List.isPrefixOf_iff_prefix.mpr isPrefix)
        rw [Option.map_eq_some_iff]
        constructor
        · rintro ⟨before, found, rfl⟩
          obtain ⟨front, rest, rfl, rfl, first⟩ := inductionHypothesis.mp found
          refine ⟨byte :: front, rest, rfl, rfl, ?_⟩
          rw [List.cons_append, List.infix_cons_iff]
          rintro (isPrefix | later)
          · apply notPrefix
            have extended : byte :: (front ++ needle.dropLast) <+:
                byte :: (front ++ (needle ++ rest)) := by
              rw [List.prefix_cons_inj, List.prefix_append_right_inj]
              exact (List.dropLast_prefix needle).trans (List.prefix_append needle rest)
            exact isPrefix.trans extended
          · exact first later
        · rintro ⟨front, rest, textEq, rfl, first⟩
          cases front with
          | nil => exact absurd ⟨rest, textEq.symm⟩ notPrefix
          | cons other front =>
              obtain ⟨rfl, rfl⟩ := List.cons.inj textEq
              refine ⟨front.length, inductionHypothesis.mpr ⟨front, rest, rfl, rfl, ?_⟩, rfl⟩
              intro later
              apply first
              rw [List.cons_append, List.infix_cons_iff]
              exact .inr later

theorem findIdx?_beq_append {byte : Char} {front back : Text} (free : byte ∉ front) :
    (front ++ byte :: back).findIdx? (· == byte) = some front.length := by
  have none : front.findIdx? (· == byte) = none := by
    rw [List.findIdx?_eq_none_iff]
    intro other member
    exact beq_eq_false_iff_ne.mpr fun eq => free (eq ▸ member)
  simp [List.findIdx?_append, none, List.findIdx?_cons]

/-- The text around the first occurrence of a byte. -/
theorem exists_of_findIdx?_beq {byte : Char} {text : Text} {position : Nat}
    (found : text.findIdx? (· == byte) = some position) :
    ∃ front back, text = front ++ byte :: back ∧ byte ∉ front ∧ front.length = position := by
  induction text generalizing position with
  | nil => simp at found
  | cons first rest inductionHypothesis =>
      rw [List.findIdx?_cons] at found
      split at found
      · rename_i here
        refine ⟨[], rest, ?_, by simp, by simpa using found⟩
        rw [List.nil_append, eq_of_beq here]
      · rename_i differs
        obtain ⟨before, earlier, rfl⟩ := Option.map_eq_some_iff.mp found
        obtain ⟨front, back, rfl, free, rfl⟩ := inductionHypothesis earlier
        refine ⟨first :: front, back, rfl, ?_, rfl⟩
        rintro (_ | ⟨_, member⟩)
        · simp at differs
        · exact free member

theorem findFrom_append (front : Text) {byte : Char} {middle back : Text} (free : byte ∉ middle) :
    findFrom byte (front ++ middle ++ byte :: back) front.length =
      some (front.length + middle.length) := by
  simp [findFrom, List.append_assoc, findIdx?_beq_append free]

theorem exists_of_findFrom_eq_some {byte : Char} {front rest : Text} {position : Nat}
    (found : findFrom byte (front ++ rest) front.length = some position) :
    ∃ middle back, rest = middle ++ byte :: back ∧ byte ∉ middle ∧
      position = front.length + middle.length := by
  rw [findFrom, List.drop_left] at found
  obtain ⟨offset, here, rfl⟩ := Option.map_eq_some_iff.mp found
  obtain ⟨middle, back, eq, free, rfl⟩ := exists_of_findIdx?_beq here
  exact ⟨middle, back, eq, free, rfl⟩

private theorem mem_singleton_eq (byte : Char) :
    (fun other => decide (other ∈ [byte])) = (· == byte) := by
  funext other
  rw [Bool.eq_iff_iff]
  simp

theorem findFirstOf_singleton_append {byte : Char} {front back : Text} (free : byte ∉ front) :
    findFirstOf [byte] (front ++ byte :: back) = some front.length := by
  rw [findFirstOf, mem_singleton_eq, findIdx?_beq_append free]

theorem findFirstOf_singleton_eq_none {byte : Char} {text : Text} (free : byte ∉ text) :
    findFirstOf [byte] text = none := by
  rw [findFirstOf, mem_singleton_eq, List.findIdx?_eq_none_iff]
  intro other member
  exact beq_eq_false_iff_ne.mpr fun eq => free (eq ▸ member)

theorem exists_of_findFirstOf {bytes text : Text} {position : Nat}
    (found : findFirstOf bytes text = some position) : ∃ byte ∈ text, byte ∈ bytes := by
  rw [findFirstOf, List.findIdx?_eq_some_iff_getElem] at found
  obtain ⟨bound, here, -⟩ := found
  exact ⟨text[position], List.getElem_mem bound, of_decide_eq_true here⟩

/-! ## Cutting -/

theorem takeWhile_ne_of_not_mem {byte : Char} {text : Text} (free : byte ∉ text) :
    text.takeWhile (· ≠ byte) = text := by
  rw [List.takeWhile_eq_self_iff]
  intro other member
  simpa using fun eq : other = byte => free (eq ▸ member)

theorem takeWhile_append {byte : Char} {front : Text} (free : byte ∉ front) (back : Text) :
    (front ++ back).takeWhile (· ≠ byte) = front ++ back.takeWhile (· ≠ byte) := by
  apply List.takeWhile_append_of_pos
  intro other member
  exact decide_eq_true fun eq => free (eq ▸ member)

theorem takeWhile_ne_append {byte : Char} {front : Text} (free : byte ∉ front) (back : Text) :
    (front ++ byte :: back).takeWhile (· ≠ byte) = front := by
  rw [takeWhile_append free]
  simp

/-- Two texts without a delimiter that are followed by it are the same text. -/
theorem append_cons_inj {delimiter : Char} {front other : Text} (free : delimiter ∉ front)
    (otherFree : delimiter ∉ other) {back rest : Text} :
    front ++ delimiter :: back = other ++ delimiter :: rest ↔ front = other ∧ back = rest := by
  constructor
  · intro same
    have fronts := congrArg (List.takeWhile (· ≠ delimiter)) same
    rw [takeWhile_ne_append free, takeWhile_ne_append otherFree] at fronts
    subst fronts
    exact ⟨rfl, (List.cons.inj (List.append_cancel_left same)).2⟩
  · rintro ⟨rfl, rfl⟩
    rfl

/-- The longest beginning with a property, and what follows it. -/
theorem span_iff {test : Char → Bool} {text front rest : Text} :
    (text.takeWhile test = front ∧ text.dropWhile test = rest) ↔
      text = front ++ rest ∧ (∀ byte ∈ front, test byte = true) ∧
        ∀ byte ∈ rest.head?, test byte = false := by
  constructor
  · rintro ⟨rfl, rfl⟩
    refine ⟨(List.takeWhile_append_dropWhile).symm, fun byte => List.mem_takeWhile_imp, ?_⟩
    intro byte member
    have stop := List.head?_dropWhile_not test text
    rw [Option.mem_def.mp member] at stop
    simpa using stop
  · rintro ⟨rfl, every, stops⟩
    rw [List.takeWhile_append_of_pos every, List.dropWhile_append_of_pos every]
    cases rest with
    | nil => simp
    | cons byte rest =>
        have stop := stops byte rfl
        rw [List.takeWhile_cons_of_neg (by simp [stop]), List.dropWhile_cons_of_neg (by simp [stop])]
        simp

/-- A text cut at a byte that the front does not have. -/
theorem dropWhile_ne_append {byte : Char} {front : Text} (free : byte ∉ front) (back : Text) :
    (front ++ byte :: back).dropWhile (· ≠ byte) = byte :: back := by
  refine (span_iff.mpr ⟨rfl, ?_, by simp⟩).2
  intro other member
  exact decide_eq_true fun eq => free (eq ▸ member)

/-- What is left after the bytes other than a given one starts with it. -/
theorem exists_of_dropWhile_ne {byte found : Char} {text rest : Text}
    (drops : text.dropWhile (· ≠ byte) = found :: rest) :
    found = byte ∧ ∃ front, text.takeWhile (· ≠ byte) = front ∧ byte ∉ front ∧
      text = front ++ byte :: rest := by
  obtain ⟨eq, every, stops⟩ := span_iff.mp ⟨rfl, drops⟩
  have isByte : found = byte := by simpa using stops found rfl
  refine ⟨isByte, _, rfl, ?_, isByte ▸ eq⟩
  intro member
  simpa using every byte member

/-- A byte that is not found because everything else goes on to the end. -/
theorem find_singleton_eq_none {byte : Char} {text : Text}
    (drops : text.dropWhile (· ≠ byte) = []) : find [byte] text = none := by
  cases found : find [byte] text with
  | none => rfl
  | some position =>
      obtain ⟨front, back, eq, _⟩ := exists_of_find_eq_some found
      have member : byte ∈ text := by
        rw [eq]
        simp
      have differs := List.dropWhile_eq_nil_iff.mp drops byte member
      simp at differs

/-- Cutting at the first of some bytes keeps the longest beginning without them. -/
theorem substr_findFirstOf {bytes text : Text} {position : Nat}
    (found : findFirstOf bytes text = some position) :
    substr text 0 position = text.takeWhile (· ∉ bytes) := by
  induction text generalizing position with
  | nil => simp [findFirstOf] at found
  | cons byte rest inductionHypothesis =>
      rw [findFirstOf, List.findIdx?_cons] at found
      split at found
      · rename_i here
        rw [← Option.some.inj found, List.takeWhile_cons_of_neg (by simp [here])]
        rfl
      · rename_i other
        obtain ⟨before, earlier, rfl⟩ := Option.map_eq_some_iff.mp found
        rw [List.takeWhile_cons_of_pos (by simp [other]), ← inductionHypothesis earlier]
        rfl

@[simp]
theorem substr_zero_append (front back : Text) : substr (front ++ back) 0 front.length = front := by
  simp [substr]

theorem substr_append (front middle back : Text) :
    substr (front ++ middle ++ back) front.length middle.length = middle := by
  simp [substr, List.append_assoc]

@[simp]
theorem substrFrom_append (front back : Text) :
    substrFrom (front ++ back) front.length = back := by
  simp [substrFrom]

/-- The text around the first occurrence of a byte from a position on. -/
theorem exists_cut_of_findFrom {byte : Char} {text : Text} {start position : Nat}
    (found : findFrom byte text start = some position) :
    ∃ front middle back, text = front ++ middle ++ byte :: back ∧ front.length = start ∧
      byte ∉ middle ∧ position = start + middle.length ∧
      substr text start (position - start) = middle := by
  have within : start ≤ text.length := by
    by_contra beyond
    rw [findFrom, List.drop_eq_nil_of_le (Nat.le_of_not_le beyond)] at found
    contradiction
  have frontLength : (text.take start).length = start := List.length_take_of_le within
  have cut := List.take_append_drop start text
  have here : findFrom byte (text.take start ++ text.drop start) (text.take start).length =
      some position := by
    rw [cut, frontLength, found]
  rcases exists_of_findFrom_eq_some here with ⟨middle, back, restEq, free, isPosition⟩
  have whole : text = text.take start ++ middle ++ byte :: back := by
    rw [List.append_assoc, ← restEq, cut]
  rw [frontLength] at isPosition
  refine ⟨text.take start, middle, back, whole, frontLength, free, isPosition, ?_⟩
  rw [isPosition, Nat.add_sub_cancel_left]
  have inside := substr_append (text.take start) middle (byte :: back)
  rwa [← whole, frontLength] at inside

@[simp]
theorem substrFrom_append_cons (front : Text) (byte : Char) (back : Text) :
    substrFrom (front ++ byte :: back) (front.length + 1) = back := by
  simp [substrFrom]

/-- What a search and the cuts find in a text made of known pieces. -/
theorem findFrom_of_eq {byte : Char} {text front middle back : Text} {start : Nat}
    (pieces : text = front ++ (middle ++ byte :: back)) (here : front.length = start)
    (free : byte ∉ middle) : findFrom byte text start = some (start + middle.length) := by
  rw [pieces, ← here, ← List.append_assoc, findFrom_append front free]

theorem findFrom_none_of_eq {byte : Char} {text front back : Text} {start : Nat}
    (pieces : text = front ++ back) (here : front.length = start) (free : byte ∉ back) :
    findFrom byte text start = none := by
  rw [findFrom, pieces, ← here, List.drop_left, Option.map_eq_none_iff, List.findIdx?_eq_none_iff]
  intro other member
  exact beq_eq_false_iff_ne.mpr fun same => free (same ▸ member)

theorem substr_of_eq {text front middle back : Text} {start count : Nat}
    (pieces : text = front ++ (middle ++ back)) (here : front.length = start)
    (long : middle.length = count) : substr text start count = middle := by
  rw [pieces, ← here, ← long, ← List.append_assoc, substr_append]

theorem substrFrom_of_eq {text front back : Text} {start : Nat} (pieces : text = front ++ back)
    (here : front.length = start) : substrFrom text start = back := by
  rw [pieces, ← here, substrFrom_append]

/-- Splitting across a separator splits both sides. -/
theorem split_append_cons (separator : Char) (front back : Text) :
    split separator (front ++ separator :: back) =
      split separator front ++ split separator back := by
  rw [split, List.splitOn_append_cons_self, List.filter_append]
  rfl

/-! ## Trimming -/

/-- A text between spaces is what trimming leaves. -/
theorem trim_of_spaces {before core after : Text}
    (spacesBefore : ∀ byte ∈ before, isSpace byte = true)
    (spacesAfter : ∀ byte ∈ after, isSpace byte = true)
    (first : ∀ byte ∈ core.head?, isSpace byte = false)
    (last : ∀ byte ∈ core.getLast?, isSpace byte = false) (nonempty : core ≠ []) :
    trim (before ++ (core ++ after)) = core := by
  have front : (before ++ (core ++ after)).dropWhile isSpace = core ++ after := by
    apply (span_iff.mpr ⟨rfl, spacesBefore, _⟩).2
    rwa [List.head?_append_of_ne_nil _ nonempty]
  have back : (core ++ after).reverse.dropWhile isSpace = core.reverse := by
    apply (span_iff.mpr ⟨List.reverse_append, _, _⟩).2
    · intro byte member
      exact spacesAfter byte (List.mem_reverse.mp member)
    · rwa [List.head?_reverse]
  rw [trim, front, back, List.reverse_reverse]

/-- Around what trimming leaves there are spaces. -/
theorem exists_of_trim (text : Text) :
    ∃ before after, text = before ++ (trim text ++ after) ∧
      (∀ byte ∈ before, isSpace byte = true) ∧ ∀ byte ∈ after, isSpace byte = true := by
  have front : text.takeWhile isSpace ++ text.dropWhile isSpace = text :=
    List.takeWhile_append_dropWhile
  have back := congrArg List.reverse
    (List.takeWhile_append_dropWhile (p := isSpace) (l := (text.dropWhile isSpace).reverse))
  rw [List.reverse_append, List.reverse_reverse] at back
  refine ⟨text.takeWhile isSpace,
    ((text.dropWhile isSpace).reverse.takeWhile isSpace).reverse, ?_, ?_, ?_⟩
  · rw [trim, back, front]
  · exact fun byte member => List.mem_takeWhile_imp member
  · exact fun byte member => List.mem_takeWhile_imp (List.mem_reverse.mp member)

theorem mem_of_mem_trim {byte : Char} {text : Text} (member : byte ∈ trim text) : byte ∈ text := by
  have inFront := (List.dropWhile_sublist _).subset (List.mem_reverse.mp member)
  exact (List.dropWhile_sublist _).subset (List.mem_reverse.mp inFront)

theorem trim_ne_nil {text : Text} {byte : Char} (member : byte ∈ text)
    (noSpace : isSpace byte = false) : trim text ≠ [] := by
  have kept (other : Text) (inOther : byte ∈ other) : byte ∈ other.dropWhile isSpace := by
    rw [← List.takeWhile_append_dropWhile (p := isSpace) (l := other)] at inOther
    rcases List.mem_append.mp inOther with spaces | rest
    · have isSpaces := List.mem_takeWhile_imp spaces
      rw [noSpace] at isSpaces
      contradiction
    · exact rest
  intro empty
  rw [trim, List.reverse_eq_nil_iff] at empty
  have inside := kept _ (List.mem_reverse.mpr (kept text member))
  rw [empty] at inside
  contradiction

/-! ## Letter case -/

@[simp]
theorem lower_append (front back : Text) : lower (front ++ back) = lower front ++ lower back :=
  List.map_append

theorem toLower_of_not_upper {byte : Char}
    (other : ¬ (byte.val ≥ 'A'.val ∧ byte.val ≤ 'Z'.val)) : byte.toLower = byte :=
  dif_neg other

theorem toNat_toLower_of_upper {byte : Char} (upper : byte.val ≥ 'A'.val ∧ byte.val ≤ 'Z'.val) :
    byte.toLower.val.toNat = byte.val.toNat + 32 := by
  have most : byte.val.toNat ≤ 90 := UInt32.le_iff_toNat_le.mp upper.2
  have shifted : byte.toLower.val = byte.val + ('a'.val - 'A'.val) :=
    congrArg Char.val (dif_pos upper)
  rw [shifted]
  change (byte.val.toNat + 32) % 2 ^ 32 = byte.val.toNat + 32
  exact Nat.mod_eq_of_lt (by omega)

private theorem isLower_iff {byte : Char} :
    byte.isLower = true ↔ byte.val ≥ 'a'.val ∧ byte.val ≤ 'z'.val := by
  change (decide (byte.val ≥ 'a'.val) && decide (byte.val ≤ 'z'.val)) = true ↔ _
  rw [Bool.and_eq_true, decide_eq_true_iff, decide_eq_true_iff]

private theorem isAlpha_eq_false_iff {byte : Char} :
    byte.isAlpha = false ↔
      ¬ (byte.val ≥ 'A'.val ∧ byte.val ≤ 'Z'.val) ∧ byte.isLower = false := by
  change (decide (byte.val ≥ 'A'.val ∧ byte.val ≤ 'Z'.val) || byte.isLower) = false ↔ _
  rw [Bool.or_eq_false_iff, decide_eq_false_iff_not]

/-- Lowering changes a byte only into a lower case letter. -/
private theorem toLower_cases (byte : Char) :
    byte.toLower = byte ∨ byte.toLower.isLower = true := by
  by_cases upper : byte.val ≥ 'A'.val ∧ byte.val ≤ 'Z'.val
  · right
    have least : 65 ≤ byte.val.toNat := UInt32.le_iff_toNat_le.mp upper.1
    have most : byte.val.toNat ≤ 90 := UInt32.le_iff_toNat_le.mp upper.2
    have shifted := toNat_toLower_of_upper upper
    rw [isLower_iff]
    constructor
    · exact UInt32.le_iff_toNat_le.mpr (show 97 ≤ byte.toLower.val.toNat by omega)
    · exact UInt32.le_iff_toNat_le.mpr (show byte.toLower.val.toNat ≤ 122 by omega)
  · left
    exact toLower_of_not_upper upper

private theorem toLower_of_isLower {byte : Char} (lower : byte.isLower = true) :
    byte.toLower = byte := by
  apply toLower_of_not_upper
  rintro ⟨_, most⟩
  have least : 97 ≤ byte.val.toNat := UInt32.le_iff_toNat_le.mp (isLower_iff.mp lower).1
  have most : byte.val.toNat ≤ 90 := UInt32.le_iff_toNat_le.mp most
  omega

@[simp]
theorem lower_lower (text : Text) : lower (lower text) = lower text := by
  rw [lower, lower, List.map_map]
  apply List.map_congr_left
  intro byte _
  rcases toLower_cases byte with same | lower
  · simp [same]
  · exact toLower_of_isLower lower

/-- A byte that is no letter is in a lowered text exactly if it is in the text. -/
theorem mem_lower_iff {byte : Char} (other : byte.isAlpha = false) {text : Text} :
    byte ∈ lower text ↔ byte ∈ text := by
  rw [isAlpha_eq_false_iff] at other
  rw [lower, List.mem_map]
  constructor
  · rintro ⟨original, member, rfl⟩
    rcases toLower_cases original with same | lower
    · rwa [same]
    · rw [other.2] at lower
      contradiction
  · intro member
    exact ⟨byte, member, toLower_of_not_upper other.1⟩

/-- A text without letters is the lowered form of itself only. -/
theorem eq_of_lower_eq {text other : Text} (letterFree : ∀ byte ∈ text, byte.isAlpha = false)
    (eq : lower other = text) : other = text := by
  rw [← eq]
  symm
  calc other.map Char.toLower = other.map id := by
        apply List.map_congr_left
        intro byte member
        rcases toLower_cases byte with same | lower
        · exact same
        · have letter := letterFree byte.toLower (eq ▸ List.mem_map_of_mem member)
          rw [isAlpha_eq_false_iff, lower] at letter
          exact Bool.noConfusion letter.2
    _ = other := List.map_id other

end Text

end Httpfs
