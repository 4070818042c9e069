import Httpfs.S3.Xml.Position.Reader

/-!
# Scanning by position

Each scanner returns what the scanner of what is left returns, at the position where that
is left, and has read something before.
-/

namespace Httpfs.S3.Xml.Position

open Text Cursor

variable {utf8Proc : Utf8Proc} {input : Text} {fuel : Nat} (enough : input.length < fuel)
include enough

theorem rest_lt {position : Nat} {rest : Text} (stands : Stands input position rest) :
    rest.length < fuel := by
  have length := stands.length_eq
  omega

variable {position : Nat} {rest : Text} (stands : Stands input position rest)
include stands

theorem skipWhitespace_eq :
    ∃ next, skipWhitespace input fuel position = .ok next ∧ position ≤ next ∧
      Stands input next (Xml.skipWhitespace rest) := by
  obtain ⟨skips, standsAfter⟩ := stands.skipWhile_eq isXMLWhitespace (rest_lt enough stands)
  exact ⟨_, skips, Nat.le_add_right _ _, standsAfter⟩

theorem parseName_refines :
    Refines (Reads input (position + 1)) (parseName input fuel position)
      (Xml.parseName rest) := by
  rw [parseName, stands.isAt_eq]
  cases rest with
  | nil => exact refines_reject
  | cons first rest =>
      change Refines _ (require (isNameStart first) >>= _) _
      apply Refines.require
      · intro notStart
        rw [Xml.parseName, notStart]
        rfl
      · intro start
        have named := isNameCharacter_of_isNameStart start
        obtain ⟨skips, standsAfter⟩ :=
          stands.tail.skipWhile_eq isNameCharacter (rest_lt enough stands.tail)
        have split : first :: rest =
            (first :: rest.takeWhile isNameCharacter) ++ rest.dropWhile isNameCharacter := by
          rw [List.cons_append, List.takeWhile_append_dropWhile]
        have cut : substrAt input position
            (first :: rest.takeWhile isNameCharacter).length = .ok _ :=
          Stands.substrAt_eq (split ▸ stands)
        have count : position + 1 + (rest.takeWhile isNameCharacter).length - position =
            (first :: rest.takeWhile isNameCharacter).length := by
          rw [List.length_cons]
          omega
        rw [Xml.parseName, if_pos start, List.takeWhile_cons_of_pos named,
          List.dropWhile_cons_of_pos named, stands.tail.moved_eq]
        change Refines _ (skipWhile input isNameCharacter fuel (position + 1) >>= _) _
        rw [skips]
        change Refines _ (substrAt input position _ >>= _) _
        rw [count, cut]
        exact refines_ok ⟨rfl, Nat.le_add_right _ _, standsAfter⟩

theorem parseQualifiedName_refines :
    Refines (Reads input (position + 1)) (parseQualifiedName input fuel position)
      (Xml.parseQualifiedName rest) := by
  rw [parseQualifiedName, Xml.parseQualifiedName, Option.bind_eq_bind]
  apply (parseName_refines enough stands).bind
  rintro ⟨first, afterFirst⟩ ⟨_, restFirst⟩ ⟨rfl, advances, standsFirst⟩
  dsimp only at advances standsFirst ⊢
  rw [standsFirst.isAt_eq]
  change Refines _ (if (restFirst.head?.any (· == ':')) = true then _ else _) _
  cases restFirst with
  | nil => exact refines_ok ⟨rfl, advances, standsFirst⟩
  | cons byte restFirst =>
      by_cases isColon : byte = ':'
      · subst isColon
        have colon : ((':' :: restFirst).head?.any (· == ':')) = true := rfl
        rw [if_pos colon, standsFirst.tail.moved_eq]
        change Refines _ (parseName input fuel (afterFirst + 1) >>= _)
          ((Xml.parseName restFirst).bind _)
        apply (parseName_refines enough standsFirst.tail).bind
        rintro ⟨localName, afterLocal⟩ ⟨_, restLocal⟩ ⟨rfl, advancesLocal, standsLocal⟩
        dsimp only at advancesLocal standsLocal ⊢
        rw [standsLocal.isAt_eq]
        change Refines _ (require (!restLocal.head?.any (· == ':')) >>= _) _
        apply Refines.require
        · intro colon
          cases restLocal with
          | nil => cases colon
          | cons other restLocal =>
              have same : other = ':' := by simpa using colon
              rw [same]
              rfl
        · intro noColon
          have other : ¬ restLocal.head? = some ':' := by
            intro colon
            rw [colon] at noColon
            cases noColon
          rw [if_neg other]
          exact refines_ok ⟨rfl, by omega, standsLocal⟩
      · have notColon : ¬ ((byte :: restFirst).head?.any (· == ':')) = true := by
          simpa using isColon
        rw [if_neg notColon]
        split
        · rename_i isCons
          cases isCons
          exact absurd rfl isColon
        · exact refines_ok ⟨rfl, advances, standsFirst⟩

omit enough in
theorem parseReference_refines :
    Refines (Reads input (position + 1)) (parseReference utf8Proc input position)
      (Xml.parseReference utf8Proc rest) := by
  rw [parseReference, stands.isAt_eq]
  cases rest with
  | nil => exact refines_reject
  | cons byte rest =>
      change Refines _ (require (byte == '&') >>= _) _
      apply Refines.require
      · intro other
        rw [Xml.parseReference]
        rintro _ ⟨⟩
        cases other
      · intro isAmpersand
        obtain rfl := eq_of_beq isAmpersand
        rw [Xml.parseReference, stands.tail.findAt_eq]
        cases left : rest.dropWhile (· ≠ ';') with
        | nil =>
            have absent : find [';'] rest = none := find_singleton_eq_none left
            rw [absent]
            exact refines_reject
        | cons found after =>
            obtain ⟨rfl, front, isFront, free, split⟩ := exists_of_dropWhile_ne left
            have found : find [';'] rest = some front.length := by
              rw [split]
              have here := @find_append ';' [] front after free
              rwa [List.append_assoc, List.singleton_append] at here
            have standsFront : Stands input (position + 1) (front ++ ';' :: after) :=
              split ▸ stands.tail
            have count : position + 1 + front.length - position - 1 = front.length := by
              omega
            have standsAfter := standsFront.append.tail
            rw [found]
            change Refines _ (substrAt input (position + 1)
              (position + 1 + front.length - position - 1) >>= _) _
            rw [count, standsFront.substrAt_eq]
            change Refines _ (moved input (position + 1 + front.length + 1) >>= _) _
            rw [standsAfter.moved_eq, isFront]
            generalize decodeReference utf8Proc front = reference
            cases reference with
            | none => exact refines_reject
            | some decoded => exact refines_ok ⟨rfl, by omega, standsAfter⟩

/-! ## Attribute values -/

/-- The quote at the start of a text, and what follows it. -/
def openingQuote : Text → Option (Char × Text)
  | [] => none
  | quote :: after => if quote = '\'' ∨ quote = '"' then some (quote, after) else none

omit enough in
theorem attributeCharacters_refines (quote : Char) {loopFuel specified : Nat} (before : Text)
    (loopEnough : rest.length < loopFuel) (specifiedEnough : rest.length < specified) :
    Refines (Collects input (position + 1) before)
      (attributeCharacters utf8Proc input quote loopFuel before position)
      (Xml.attributeCharacters utf8Proc quote specified rest) := by
  induction loopFuel generalizing specified before position rest with
  | zero => contradiction
  | succ loopFuel inductionHypothesis =>
      obtain ⟨specified, rfl⟩ := Nat.exists_eq_add_one_of_ne_zero (Nat.ne_zero_of_lt specifiedEnough)
      rw [attributeCharacters]
      cases rest with
      | nil =>
          have atEnd : ¬ position < input.length := fun before => stands.lt_iff.mp before rfl
          rw [if_neg atEnd]
          exact refines_reject
      | cons current rest =>
          rw [if_pos (stands.lt_iff.mpr (List.cons_ne_nil _ _)), stands.charAt_eq,
            Xml.attributeCharacters]
          dsimp only
          change Refines _ (if current = quote then _ else _) _
          by_cases closes : current = quote
          · rw [if_pos closes, if_pos closes, stands.tail.moved_eq]
            exact refines_ok ⟨(List.append_nil _).symm, le_rfl, stands.tail⟩
          · rw [if_neg closes, if_neg closes]
            by_cases opens : current = '<'
            · rw [if_pos opens, if_pos opens]
              exact refines_reject
            · rw [if_neg opens, if_neg opens]
              by_cases reference : current = '&'
              · rw [if_pos reference, if_pos reference]
                apply (parseReference_refines stands).bind
                rintro ⟨decoded, next⟩ ⟨_, after⟩ ⟨rfl, advances, standsAfter⟩
                dsimp only at advances standsAfter ⊢
                have shorter : after.length < rest.length + 1 := by
                  have length := stands.length_eq
                  have lengthAfter := standsAfter.length_eq
                  rw [List.length_cons] at length
                  omega
                have later := inductionHypothesis standsAfter (before ++ decoded)
                  (Nat.lt_of_lt_of_le shorter (Nat.le_of_lt_succ loopEnough))
                  (Nat.lt_of_lt_of_le shorter (Nat.le_of_lt_succ specifiedEnough))
                apply later.bind_some
                exact fun _ _ collects => collects.of_append (by omega)
              · rw [if_neg reference, if_neg reference, stands.tail.moved_eq]
                have later := inductionHypothesis stands.tail
                  (before ++ [if isXMLWhitespace current then ' ' else current])
                  (Nat.lt_of_succ_lt_succ loopEnough) (Nat.lt_of_succ_lt_succ specifiedEnough)
                apply later.bind_some
                exact fun _ _ collects => collects.of_append (by omega)

omit enough in
/-- The quote, and what follows it. -/
theorem parseQuote_refines :
    Refines (Reads input (position + 1)) (parseQuote input position)
      (openingQuote rest) := by
  rw [parseQuote, stands.isAt_eq]
  cases rest with
  | nil => exact refines_reject
  | cons quote rest =>
      change Refines _ (require (quote == '\'' || quote == '"') >>= _) _
      apply Refines.require
      · intro other
        have notQuote : ¬ (quote = '\'' ∨ quote = '"') := by simpa using other
        exact if_neg notQuote
      · intro isQuote
        have quoted : quote = '\'' ∨ quote = '"' := by simpa using isQuote
        rw [stands.charAt_eq, openingQuote, if_pos quoted]
        change Refines _ (moved input (position + 1) >>= _) _
        rw [stands.tail.moved_eq]
        exact refines_ok ⟨rfl, le_rfl, stands.tail⟩

theorem parseAttributeValue_refines :
    Refines (Reads input (position + 1)) (parseAttributeValue utf8Proc input fuel position)
      (Xml.parseAttributeValue utf8Proc rest) := by
  have specified : Xml.parseAttributeValue utf8Proc rest =
      (openingQuote rest).bind fun opened => Xml.attributeCharacters utf8Proc opened.1 (opened.2.length + 1) opened.2 := by
    cases rest with
    | nil => rfl
    | cons quote rest =>
        rw [Xml.parseAttributeValue, openingQuote]
        split <;> rfl
  rw [parseAttributeValue, specified]
  apply (parseQuote_refines stands).bind
  rintro ⟨quote, next⟩ ⟨_, after⟩ ⟨rfl, advances, standsAfter⟩
  apply (attributeCharacters_refines standsAfter quote [] (rest_lt enough standsAfter)
    (Nat.lt_succ_self _)).mono
  rintro ⟨value, last⟩ ⟨specifiedValue, left⟩ ⟨value, advancesLast, standsLast⟩
  exact ⟨value, by dsimp only at advances advancesLast ⊢; omega, standsLast⟩

omit enough in
theorem declarationCharacters_refines (quote : Char) {loopFuel : Nat} (before : Text)
    (loopEnough : rest.length < loopFuel) :
    Refines (Collects input (position + 1) before)
      (declarationCharacters input quote loopFuel before position)
      (Xml.declarationCharacters quote rest) := by
  induction loopFuel generalizing before position rest with
  | zero => contradiction
  | succ loopFuel inductionHypothesis =>
      rw [declarationCharacters]
      cases rest with
      | nil =>
          have atEnd : ¬ position < input.length := fun before => stands.lt_iff.mp before rfl
          rw [if_neg atEnd]
          exact refines_reject
      | cons current rest =>
          rw [if_pos (stands.lt_iff.mpr (List.cons_ne_nil _ _)), stands.charAt_eq,
            Xml.declarationCharacters]
          change Refines _ (if current = quote then _ else _) _
          by_cases closes : current = quote
          · rw [if_pos closes, if_pos closes, stands.tail.moved_eq]
            exact refines_ok ⟨(List.append_nil _).symm, le_rfl, stands.tail⟩
          · rw [if_neg closes, if_neg closes]
            apply Refines.require
            · intro refused
              have notName : ¬ isNameCharacter current = true := by
                intro named
                have notMarkup : current ≠ '<' ∧ current ≠ '&' := by
                  constructor <;>
                  · rintro rfl
                    revert named
                    decide
                simp [named, notMarkup] at refused
              exact if_neg notName
            · intro accepted
              have named : isNameCharacter current = true := by
                cases named : isNameCharacter current with
                | true => rfl
                | false => simp [named] at accepted
              rw [if_pos named, stands.tail.moved_eq]
              have later := inductionHypothesis stands.tail (before ++ [current])
                (Nat.lt_of_succ_lt_succ loopEnough)
              apply later.bind_some
              exact fun _ _ collects => collects.of_append (by omega)

theorem parseDeclarationValue_refines :
    Refines (Reads input (position + 1)) (parseDeclarationValue input fuel position)
      (Xml.parseDeclarationValue rest) := by
  have specified : Xml.parseDeclarationValue rest =
      (openingQuote rest).bind fun opened => Xml.declarationCharacters opened.1 opened.2 := by
    cases rest with
    | nil => rfl
    | cons quote rest =>
        rw [Xml.parseDeclarationValue, openingQuote]
        split <;> rfl
  rw [parseDeclarationValue, specified]
  apply (parseQuote_refines stands).bind
  rintro ⟨quote, next⟩ ⟨_, after⟩ ⟨rfl, advances, standsAfter⟩
  apply (declarationCharacters_refines standsAfter quote [] (rest_lt enough standsAfter)).mono
  rintro ⟨value, last⟩ ⟨specifiedValue, left⟩ ⟨value, advancesLast, standsLast⟩
  exact ⟨value, by dsimp only at advances advancesLast ⊢; omega, standsLast⟩

/-- The equals sign, with white space around it. -/
theorem parseEquals_refines :
    Refines (fun next left => position + 1 ≤ next ∧ Stands input next left)
      (parseEquals input fuel position) (Xml.parseEquals rest) := by
  obtain ⟨next, skips, advances, standsNext⟩ := skipWhitespace_eq enough stands
  rw [parseEquals, skips, Xml.parseEquals]
  change Refines _ (isAt input next (· == '=') >>= _) _
  rw [standsNext.isAt_eq]
  cases left : Xml.skipWhitespace rest with
  | nil => exact refines_reject
  | cons byte after =>
      rw [left] at standsNext
      change Refines _ (require (byte == '=') >>= _) _
      apply Refines.require
      · intro other
        split
        · rename_i isEquals
          cases isEquals
          cases other
        · rfl
      · intro isEquals
        obtain rfl := eq_of_beq isEquals
        obtain ⟨last, skipsLast, advancesLast, standsLast⟩ :=
          skipWhitespace_eq enough standsNext.tail
        rw [standsNext.tail.moved_eq]
        change Refines _ (skipWhitespace input fuel (next + 1)) _
        rw [skipsLast]
        exact refines_ok ⟨by omega, standsLast⟩

end Httpfs.S3.Xml.Position
