import Mathlib.Data.List.Nodup
import Mathlib.Data.Option.Basic
import Mathlib.Data.Prod.Basic
import Httpfs.S3.Xml.Lexical

/-!
# Scanning tags

The attributes of a start tag as the reader scans them, and its namespace
rules as the reader checks them.
-/

namespace Httpfs.S3.Xml

open Text

variable {utf8Proc : Utf8Proc}

/-! ## Attribute values -/

theorem parseEquals_eq_some_iff {input rest : Text} :
    parseEquals input = some rest ↔
      ∃ before after, Blank before ∧ Blank after ∧ input = before ++ '=' :: (after ++ rest) ∧
        ∀ byte ∈ rest.head?, isXMLWhitespace byte = false := by
  constructor
  · intro parses
    unfold parseEquals at parses
    split at parses
    · rename_i tail skips
      obtain ⟨before, rfl, blank, -⟩ := skipWhitespace_eq_iff.mp skips
      obtain ⟨after, rfl, blankAfter, stops⟩ :=
        skipWhitespace_eq_iff.mp (Option.some.inj parses)
      exact ⟨before, after, blank, blankAfter, rfl, stops⟩
    · contradiction
  · rintro ⟨before, after, blank, blankAfter, rfl, stops⟩
    have skips := skipWhitespace_eq_iff.mpr
      ⟨before, (rfl : before ++ '=' :: (after ++ rest) = _), blank, by
        rintro byte ⟨⟩
        decide⟩
    rw [parseEquals, skips]
    exact congrArg some (skipWhitespace_eq_iff.mpr ⟨after, rfl, blankAfter, stops⟩)

def IsQuote (quote : Char) : Prop :=
  quote = '\'' ∨ quote = '"'

namespace IsQuote

variable {quote : Char}

theorem ne_ampersand (isQuote : IsQuote quote) : quote ≠ '&' := by
  rcases isQuote with rfl | rfl <;> decide

theorem not_blank (isQuote : IsQuote quote) : isXMLWhitespace quote = false := by
  rcases isQuote with rfl | rfl <;> decide

theorem not_nameCharacter (isQuote : IsQuote quote) : isNameCharacter quote = false := by
  rcases isQuote with rfl | rfl <;> decide

end IsQuote

section Values

variable (lawful : utf8Proc.Lawful) {quote : Char}
include lawful

private theorem attributeCharacters_sound {fuel : Nat} {input value rest : Text}
    (parses : attributeCharacters utf8Proc quote fuel input = some (value, rest)) :
    ∃ pieces : List ValuePiece, (∀ piece ∈ pieces, piece.WellFormed quote) ∧
      input = pieces.flatMap ValuePiece.render ++ quote :: rest ∧
        value = pieces.flatMap ValuePiece.value := by
  induction fuel generalizing input value with
  | zero => contradiction
  | succ fuel inductionHypothesis =>
      cases input with
      | nil => contradiction
      | cons current tail =>
          rw [attributeCharacters] at parses
          dsimp only at parses
          by_cases ends : current = quote
          · rw [if_pos ends] at parses
            cases parses
            exact ⟨[], by simp, by simp [ends], rfl⟩
          rw [if_neg ends] at parses
          by_cases opens : current = '<'
          · rw [if_pos opens] at parses
            contradiction
          rw [if_neg opens] at parses
          by_cases refers : current = '&'
          · rw [if_pos refers] at parses
            obtain ⟨⟨decoded, afterReference⟩, parsesReference, continues⟩ :=
              Option.bind_eq_some_iff.mp parses
            obtain ⟨⟨later, afterValue⟩, parsesLater, returns⟩ :=
              Option.bind_eq_some_iff.mp continues
            cases returns
            obtain ⟨ref, wellFormed, eq, rfl⟩ :=
              (parseReference_eq_some_iff lawful).mp parsesReference
            obtain ⟨pieces, every, rfl, rfl⟩ := inductionHypothesis parsesLater
            refine ⟨.reference ref :: pieces, ?_, ?_, rfl⟩
            · simpa [ValuePiece.WellFormed] using ⟨wellFormed, every⟩
            · simp [eq, ValuePiece.render]
          · rw [if_neg refers] at parses
            obtain ⟨⟨later, afterValue⟩, parsesLater, returns⟩ :=
              Option.bind_eq_some_iff.mp parses
            cases returns
            obtain ⟨pieces, every, rfl, rfl⟩ := inductionHypothesis parsesLater
            refine ⟨.byte current :: pieces, ?_, by simp [ValuePiece.render], rfl⟩
            simpa [ValuePiece.WellFormed] using ⟨⟨ends, opens, refers⟩, every⟩

private theorem attributeCharacters_complete (isQuote : IsQuote quote)
    {pieces : List ValuePiece} (every : ∀ piece ∈ pieces, piece.WellFormed quote) (rest : Text)
    {fuel : Nat} (enough : pieces.length < fuel) :
    attributeCharacters utf8Proc quote fuel
        (pieces.flatMap ValuePiece.render ++ quote :: rest) =
      some (pieces.flatMap ValuePiece.value, rest) := by
  induction pieces generalizing fuel with
  | nil =>
      cases fuel with
      | zero => contradiction
      | succ fuel => simp [attributeCharacters]
  | cons piece pieces inductionHypothesis =>
      cases fuel with
      | zero => contradiction
      | succ fuel =>
          have later := @inductionHypothesis
            (fun other member => every other (List.mem_cons_of_mem _ member)) fuel
            (Nat.lt_of_succ_lt_succ enough)
          have wellFormed := every piece List.mem_cons_self
          cases piece with
          | byte current =>
              obtain ⟨ends, opens, refers⟩ := wellFormed
              rw [List.flatMap_cons, List.append_assoc, ValuePiece.render, List.singleton_append,
                attributeCharacters]
              dsimp only
              rw [if_neg ends, if_neg opens, if_neg refers, later]
              rfl
          | reference ref =>
              have parses := (parseReference_eq_some_iff lawful).mpr
                ⟨ref, wellFormed,
                  (rfl : ref.render ++ (pieces.flatMap ValuePiece.render ++ quote :: rest) = _),
                  rfl⟩
              rw [List.flatMap_cons, List.append_assoc, ValuePiece.render]
              rw [Reference.render, List.cons_append] at parses ⊢
              rw [attributeCharacters]
              dsimp only
              rw [if_neg isQuote.ne_ampersand.symm, if_neg (by decide), if_pos rfl, parses]
              simp only [Option.bind_eq_bind, Option.bind_some, later]
              rfl

omit lawful in
private theorem length_le_render (pieces : List ValuePiece) :
    pieces.length ≤ (pieces.flatMap ValuePiece.render).length := by
  induction pieces with
  | nil => exact le_rfl
  | cons piece pieces inductionHypothesis =>
      have positive : 0 < piece.render.length := by
        cases piece <;> simp [ValuePiece.render, Reference.render]
      rw [List.flatMap_cons, List.length_append, List.length_cons]
      omega

theorem parseAttributeValue_eq_some_iff {input value rest : Text} :
    parseAttributeValue utf8Proc input = some (value, rest) ↔
      ∃ (quote : Char) (pieces : List ValuePiece), IsQuote quote ∧
        (∀ piece ∈ pieces, piece.WellFormed quote) ∧
        input = quote :: (pieces.flatMap ValuePiece.render ++ quote :: rest) ∧
        value = pieces.flatMap ValuePiece.value := by
  constructor
  · intro parses
    cases input with
    | nil => contradiction
    | cons quote tail =>
        rw [parseAttributeValue] at parses
        split at parses
        · rename_i isQuote
          obtain ⟨pieces, every, rfl, rfl⟩ := attributeCharacters_sound lawful parses
          exact ⟨quote, pieces, isQuote, every, rfl, rfl⟩
        · contradiction
  · rintro ⟨quote, pieces, isQuote, every, rfl, rfl⟩
    rw [parseAttributeValue, if_pos (by exact isQuote)]
    apply attributeCharacters_complete lawful isQuote every
    have short := length_le_render pieces
    rw [List.length_append]
    omega

end Values

/-! ## Start tags -/

theorem not_blank_of_isNameStart {byte : Char} (start : isNameStart byte = true) :
    isXMLWhitespace byte = false := by
  cases blank : isXMLWhitespace byte with
  | false => rfl
  | true =>
      simp only [isXMLWhitespace, Bool.or_eq_true, beq_iff_eq] at blank
      rcases blank with ((rfl | rfl) | rfl) | rfl <;> contradiction

theorem not_nameCharacter_of_blank {byte : Char} (blank : isXMLWhitespace byte = true) :
    isNameCharacter byte = false ∧ byte ≠ ':' := by
  simp only [isXMLWhitespace, Bool.or_eq_true, beq_iff_eq] at blank
  rcases blank with ((rfl | rfl) | rfl) | rfl <;> decide

/-- A valid name starts with a name start character. -/
theorem S3XMLQualifiedName.IsValid.exists_first {name : S3XMLQualifiedName}
    (valid : name.IsValid) :
    ∃ first tail, name.render = first :: tail ∧ isNameStart first = true := by
  have starts : ∀ {text : Text}, IsName text → ∃ first tail, text = first :: tail ∧
      isNameStart first = true := by
    intro text isName
    cases text with
    | nil => exact isName.elim
    | cons first tail => exact ⟨first, tail, rfl, isName.1⟩
  rcases valid with ⟨unprefixed | isPrefix, isLocal⟩
  · rw [render, if_pos (by simp [unprefixed])]
    exact starts isLocal
  · rw [render, if_neg (by simpa using isPrefix.ne_nil)]
    obtain ⟨first, tail, eq, start⟩ := starts isPrefix
    exact ⟨first, _, by rw [eq, List.cons_append], start⟩

theorem Blank.endsName {blank rest : Text} (isBlank : Blank blank) (ends : EndsName rest) :
    EndsName (blank ++ rest) := by
  cases blank with
  | nil => exact ends
  | cons byte blank =>
      rintro other ⟨⟩
      exact not_nameCharacter_of_blank (isBlank _ List.mem_cons_self)

/-- The end of a start tag. -/
def tagEnd (selfClosing : Bool) : Text :=
  if selfClosing then "/>".toList else ">".toList

theorem tagEnd_head (selfClosing : Bool) (rest : Text) :
    ∀ byte ∈ (tagEnd selfClosing ++ rest).head?, byte = '/' ∨ byte = '>' := by
  cases selfClosing
  · rintro byte ⟨⟩
    exact .inr rfl
  · rintro byte ⟨⟩
    exact .inl rfl

section Attributes

variable (lawful : utf8Proc.Lawful)
include lawful

private theorem tagAttributes_sound {fuel : Nat} {input rest : Text}
    {before result : List S3XMLAttribute} {selfClosing : Bool}
    (parses : tagAttributes utf8Proc fuel input before = some (result, selfClosing, rest))
    (distinct : (before.map S3XMLAttribute.name).Nodup) :
    ∃ (attributes : List AttributeSyntax) (trailing : Text),
      (∀ attr ∈ attributes, attr.WellFormed) ∧ Blank trailing ∧
      (before.map S3XMLAttribute.name ++ attributes.map AttributeSyntax.name).Nodup ∧
      result = before ++ attributes.map AttributeSyntax.meaning ∧
      input = attributes.flatMap AttributeSyntax.render ++ trailing ++
        (tagEnd selfClosing ++ rest) := by
  induction fuel generalizing input before with
  | zero => contradiction
  | succ fuel inductionHypothesis =>
      rw [tagAttributes.eq_def] at parses
      dsimp only at parses
      split at parses
      · contradiction
      · cases parses
        exact ⟨[], [], by simp, blank_nil, by simpa using distinct, by simp, rfl⟩
      · rename_i current tail notClosing
        split at parses
        · rename_i closes
          cases parses
          obtain ⟨rfl, closes⟩ := closes
          obtain ⟨rest, rfl⟩ := List.head?_eq_some_iff.mp closes
          exact ⟨[], [], by simp, blank_nil, by simpa using distinct, by simp, rfl⟩
        split at parses
        · contradiction
        · rename_i isBlank
          rw [Bool.not_eq_true, Bool.not_eq_false'] at isBlank
          obtain ⟨blank, eq, blankIs, stops⟩ :=
            (@skipWhitespace_eq_iff (current :: tail) _).mp rfl
          have nonempty : blank ≠ [] := by
            rintro rfl
            rw [List.nil_append] at eq
            rw [← eq] at stops
            exact absurd isBlank (by simpa using stops current rfl)
          -- White space before the end of the tag.
          have ending : tagAttributes utf8Proc fuel (skipWhitespace (current :: tail)) before =
              some (result, selfClosing, rest) → ∃ (attributes : List AttributeSyntax)
                (trailing : Text), (∀ attr ∈ attributes, attr.WellFormed) ∧ Blank trailing ∧
                (before.map S3XMLAttribute.name ++ attributes.map AttributeSyntax.name).Nodup ∧
                result = before ++ attributes.map AttributeSyntax.meaning ∧
                current :: tail = attributes.flatMap AttributeSyntax.render ++ trailing ++
                  (tagEnd selfClosing ++ rest) := by
            intro parses
            obtain ⟨attributes, trailing, every, trailingBlank, names, resultEq, inputEq⟩ :=
              inductionHypothesis parses distinct
            cases attributes with
            | nil =>
                refine ⟨[], blank ++ trailing, every, blankIs.append trailingBlank, names,
                  resultEq, ?_⟩
                rw [eq, inputEq]
                simp
            | cons attr attributes =>
                exfalso
                have wellFormed := every attr List.mem_cons_self
                obtain ⟨byte, others, blankEq⟩ := List.exists_cons_of_ne_nil wellFormed.separated
                have first := wellFormed.blank byte (by simp [blankEq])
                have none := stops byte (by simp [inputEq, AttributeSyntax.render, blankEq])
                exact absurd first (by simp [none])
          split at parses
          · rename_i ended
            exact ending (ended.symm ▸ parses)
          · rename_i next others skipped
            split at parses
            · exact ending (skipped.symm ▸ parses)
            obtain ⟨⟨name, afterName⟩, parsesName, continues⟩ :=
              Option.bind_eq_some_iff.mp parses
            dsimp only at continues
            split at continues
            · contradiction
            rename_i fresh
            obtain ⟨afterEquals, parsesEquals, continues⟩ :=
              Option.bind_eq_some_iff.mp continues
            obtain ⟨⟨value, afterValue⟩, parsesValue, continues⟩ :=
              Option.bind_eq_some_iff.mp continues
            dsimp only at continues
            obtain ⟨valid, nameEq, -⟩ := parseQualifiedName_eq_some_iff.mp parsesName
            obtain ⟨beforeEquals, after, beforeBlank, afterBlank, rfl, -⟩ :=
              parseEquals_eq_some_iff.mp parsesEquals
            obtain ⟨quote, pieces, isQuote, everyPiece, rfl, rfl⟩ :=
              (parseAttributeValue_eq_some_iff lawful).mp parsesValue
            have notBefore : name ∉ before.map S3XMLAttribute.name := by
              intro member
              obtain ⟨attr, isAttribute, rfl⟩ := List.mem_map.mp member
              exact fresh (List.any_eq_true.mpr ⟨attr, isAttribute, beq_self_eq_true _⟩)
            obtain ⟨attributes, trailing, every, trailingBlank, names, rfl, rfl⟩ :=
              inductionHypothesis continues (by
                rw [List.map_append, List.map_cons, List.map_nil]
                exact List.nodup_append.mpr ⟨distinct, by simp, by
                  rintro other member _ (_ | _)
                  · rintro rfl
                    exact notBefore member
                  · contradiction⟩)
            refine ⟨⟨blank, name, beforeEquals, after, quote, pieces⟩ :: attributes, trailing,
              ?_, trailingBlank, ?_, ?_, ?_⟩
            · intro attr member
              rcases List.mem_cons.mp member with rfl | later
              · exact ⟨nonempty, blankIs, valid, beforeBlank, afterBlank, isQuote, everyPiece⟩
              · exact every attr later
            · simpa using names
            · simp [AttributeSyntax.meaning]
            · rw [eq, nameEq]
              simp [AttributeSyntax.render]

/-- An attribute is scanned up to the byte behind its closing quote. -/
private theorem tagAttributes_attribute {attr : AttributeSyntax} (wellFormed : attr.WellFormed)
    {before : List S3XMLAttribute} (fresh : attr.name ∉ before.map S3XMLAttribute.name)
    (rest : Text) (fuel : Nat) :
    tagAttributes utf8Proc (fuel + 1) (attr.render ++ rest) before =
      tagAttributes utf8Proc fuel rest (before ++ [attr.meaning]) := by
  obtain ⟨first, others, nameEq, start⟩ := wellFormed.name.exists_first
  obtain ⟨current, blank, blankEq⟩ := List.exists_cons_of_ne_nil wellFormed.separated
  have isBlank : isXMLWhitespace current = true :=
    wellFormed.blank current (by simp [blankEq])
  have notBlank := not_blank_of_isNameStart start
  have inputEq : attr.render ++ rest = attr.blank ++ (attr.name.render ++
      (attr.beforeEquals ++ '=' :: (attr.afterEquals ++
        attr.quote :: (attr.pieces.flatMap ValuePiece.render ++ attr.quote :: rest)))) := by
    simp [AttributeSyntax.render]
  have skips := skipWhitespace_eq_iff.mpr ⟨attr.blank, inputEq, wellFormed.blank, by
    rw [nameEq]
    rintro byte ⟨⟩
    exact notBlank⟩
  have parsesName := parseQualifiedName_eq_some_iff.mpr ⟨wellFormed.name,
    (rfl : attr.name.render ++ (attr.beforeEquals ++ '=' :: (attr.afterEquals ++
      attr.quote :: (attr.pieces.flatMap ValuePiece.render ++ attr.quote :: rest))) = _),
    wellFormed.before.endsName (by
      rintro byte ⟨⟩
      decide)⟩
  have parsesEquals := parseEquals_eq_some_iff.mpr ⟨attr.beforeEquals, attr.afterEquals,
    wellFormed.before, wellFormed.after,
    (rfl : attr.beforeEquals ++ '=' :: (attr.afterEquals ++
      attr.quote :: (attr.pieces.flatMap ValuePiece.render ++ attr.quote :: rest)) = _), by
    rintro byte ⟨⟩
    exact IsQuote.not_blank wellFormed.quote⟩
  have parsesValue := (parseAttributeValue_eq_some_iff lawful).mpr ⟨attr.quote, attr.pieces,
    wellFormed.quote, wellFormed.pieces,
    (rfl : attr.quote :: (attr.pieces.flatMap ValuePiece.render ++ attr.quote :: rest) = _), rfl⟩
  have notAny : before.any (·.name == attr.name) ≠ true := by
    intro repeated
    obtain ⟨other, isBefore, same⟩ := List.any_eq_true.mp repeated
    exact fresh (List.mem_map.mpr ⟨other, isBefore, eq_of_beq same⟩)
  obtain ⟨tail, consEq⟩ : ∃ tail, attr.render ++ rest = current :: tail := by
    rw [inputEq, blankEq]
    exact ⟨_, rfl⟩
  rw [consEq] at skips ⊢
  have notClosing : current ≠ '>' := by
    rintro rfl
    exact absurd isBlank (by decide)
  have notSlash : ¬ (current = '/' ∧ tail.head? = some '>') := by
    rintro ⟨rfl, -⟩
    exact absurd isBlank (by decide)
  have notEnding : ¬ (first = '>' ∨ first = '/') := by
    rintro (rfl | rfl) <;> exact absurd start (by decide)
  rw [tagAttributes.eq_def]
  dsimp only
  split
  · contradiction
  · rename_i same
    exact absurd (List.cons.inj same).1 notClosing
  · rename_i same
    obtain ⟨rfl, rfl⟩ := List.cons.inj same
    rw [if_neg notSlash, if_neg (by simp [isBlank]), skips, nameEq, List.cons_append]
    dsimp only
    rw [if_neg notEnding, ← List.cons_append, ← nameEq, parsesName]
    simp only [Option.bind_eq_bind, Option.bind_some, if_neg notAny, parsesEquals, parsesValue]
    rfl

omit lawful in
private theorem tagAttributes_end {trailing : Text} (blank : Blank trailing)
    (selfClosing : Bool) (rest : Text) (before : List S3XMLAttribute) (fuel : Nat) :
    tagAttributes utf8Proc (fuel + 2) (trailing ++ (tagEnd selfClosing ++ rest)) before =
      some (before, selfClosing, rest) := by
  have closes : ∀ fuel, tagAttributes utf8Proc (fuel + 1) (tagEnd selfClosing ++ rest) before =
      some (before, selfClosing, rest) := by
    intro fuel
    cases selfClosing
    · simp [tagAttributes, tagEnd]
    · simp [tagAttributes, tagEnd]
  cases trailing with
  | nil => exact closes (fuel + 1)
  | cons current trailing =>
      have isBlank : isXMLWhitespace current = true := blank current List.mem_cons_self
      have head := tagEnd_head selfClosing rest
      have skips := skipWhitespace_eq_iff.mpr
        ⟨current :: trailing, (rfl : _ ++ (tagEnd selfClosing ++ rest) = _), blank, by
          intro byte member
          rcases head byte member with rfl | rfl <;> decide⟩
      have notClosing : current ≠ '>' := by
        rintro rfl
        exact absurd isBlank (by decide)
      have notSlash : ¬ (current = '/' ∧ (trailing ++ (tagEnd selfClosing ++ rest)).head? =
          some '>') := by
        rintro ⟨rfl, -⟩
        exact absurd isBlank (by decide)
      rw [List.cons_append] at skips ⊢
      rw [tagAttributes.eq_def]
      dsimp only
      split
      · contradiction
      · rename_i same
        exact absurd (List.cons.inj same).1 notClosing
      · rename_i same
        obtain ⟨rfl, rfl⟩ := List.cons.inj same
        rw [if_neg notSlash, if_neg (by simp [isBlank]), skips]
        split
        · exact closes fuel
        · rename_i next others same
          have ended : next = '>' ∨ next = '/' := (head next (by rw [same]; rfl)).symm
          rw [if_pos ended]
          exact closes fuel

private theorem tagAttributes_complete {attributes : List AttributeSyntax} {trailing : Text}
    (every : ∀ attr ∈ attributes, attr.WellFormed) (blank : Blank trailing)
    (selfClosing : Bool) (rest : Text) {before : List S3XMLAttribute}
    (distinct : (before.map S3XMLAttribute.name ++
      attributes.map AttributeSyntax.name).Nodup) (fuel : Nat) :
    tagAttributes utf8Proc (fuel + attributes.length + 2)
        (attributes.flatMap AttributeSyntax.render ++ trailing ++ (tagEnd selfClosing ++ rest))
        before =
      some (before ++ attributes.map AttributeSyntax.meaning, selfClosing, rest) := by
  induction attributes generalizing before with
  | nil =>
      have ends := @tagAttributes_end utf8Proc _ blank selfClosing rest before fuel
      simpa using ends
  | cons attr attributes inductionHypothesis =>
      have fresh : attr.name ∉ before.map S3XMLAttribute.name := by
        intro member
        exact (List.nodup_append.mp distinct).2.2 _ member _ (by simp) rfl
      have later := @inductionHypothesis
        (fun other member => every other (List.mem_cons_of_mem _ member))
        (before ++ [attr.meaning]) (by simpa [AttributeSyntax.meaning] using distinct)
      rw [List.flatMap_cons, List.append_assoc, List.append_assoc, List.length_cons,
        show fuel + (attributes.length + 1) + 2 = fuel + attributes.length + 2 + 1 by omega,
        tagAttributes_attribute lawful (every attr List.mem_cons_self) fresh,
        ← List.append_assoc, later]
      simp

omit lawful in
private theorem length_le_flatMap_render (attributes : List AttributeSyntax) :
    attributes.length ≤ (attributes.flatMap AttributeSyntax.render).length := by
  induction attributes with
  | nil => exact le_rfl
  | cons attr attributes inductionHypothesis =>
      have positive : 0 < attr.render.length := by
        simp only [AttributeSyntax.render, List.length_append, List.length_cons]
        omega
      rw [List.flatMap_cons, List.length_append, List.length_cons]
      omega

/-- What the loop over the attributes of a start tag accepts. -/
theorem tagAttributes_eq_some_iff {input rest : Text} {result : List S3XMLAttribute}
    {selfClosing : Bool} :
    tagAttributes utf8Proc (input.length + 1) input [] = some (result, selfClosing, rest) ↔
      ∃ (attributes : List AttributeSyntax) (trailing : Text),
        (∀ attr ∈ attributes, attr.WellFormed) ∧ Blank trailing ∧
        (attributes.map AttributeSyntax.name).Nodup ∧
        result = attributes.map AttributeSyntax.meaning ∧
        input = attributes.flatMap AttributeSyntax.render ++ trailing ++
          (tagEnd selfClosing ++ rest) := by
  constructor
  · intro parses
    simpa using tagAttributes_sound lawful parses (by simp)
  · rintro ⟨attributes, trailing, every, blank, distinct, rfl, rfl⟩
    have short := length_le_flatMap_render attributes
    have endLength : 1 ≤ (tagEnd selfClosing).length := by
      cases selfClosing <;> decide
    obtain ⟨fuel, fuelEq⟩ : ∃ fuel, (attributes.flatMap AttributeSyntax.render ++ trailing ++
        (tagEnd selfClosing ++ rest)).length + 1 = fuel + attributes.length + 2 := by
      have room : attributes.length + 2 ≤ (attributes.flatMap AttributeSyntax.render ++
          trailing ++ (tagEnd selfClosing ++ rest)).length + 1 := by
        simp only [List.length_append]
        omega
      exact ⟨_, (Nat.sub_add_cancel room).symm⟩
    rw [fuelEq,
      tagAttributes_complete lawful every blank selfClosing rest (by simpa using distinct)]
    rfl

end Attributes

/-! ## Namespaces -/

private theorem declarations_cons (attr : S3XMLAttribute) (attributes : List S3XMLAttribute) :
    declarations (attr :: attributes) =
      ((declaredPrefix? attr.name).map fun declared =>
        (⟨declared, attr.value⟩ : S3XMLNamespaceBinding)).toList ++ declarations attributes := by
  cases declares : declaredPrefix? attr.name with
  | none => simp [declarations, declares]
  | some declared => simp [declarations, declares]

private theorem xmlNamespace_ne_nil : xmlNamespace ≠ [] := by
  decide

/-- The declarations of a tag are entered one by one, each under the namespace rules. -/
theorem applyNamespaceDeclarations_eq_some_iff {attributes : List S3XMLAttribute}
    {outer scope : Scope} :
    applyNamespaceDeclarations attributes outer = some scope ↔
      (∀ binding ∈ declarations attributes, DeclarationAllowed binding) ∧
        scope = (declarations attributes).reverse ++ outer := by
  induction attributes generalizing outer with
  | nil =>
      rw [applyNamespaceDeclarations, Option.some.injEq]
      simp [declarations, eq_comm]
  | cons attr attributes inductionHypothesis =>
      rw [applyNamespaceDeclarations, declarations_cons]
      cases declares : declaredPrefix? attr.name with
      | none => simpa using inductionHypothesis
      | some declared =>
          simp only [Option.map_some, Option.toList_some, List.singleton_append,
            List.mem_cons, forall_eq_or_imp, List.reverse_cons, List.append_assoc]
          have allowedIff : DeclarationAllowed ⟨declared, attr.value⟩ ↔
              ¬ (declared = "xmlns".toList ∨ attr.value = xmlnsNamespace) ∧
              (declared = "xml".toList → attr.value = xmlNamespace) ∧
              (declared ≠ "xml".toList → ¬ (attr.value = xmlNamespace ∨
                (declared ≠ [] ∧ attr.value = []))) := by
            constructor
            · rintro ⟨noXmlns, noUri, xml, noUndeclaring⟩
              refine ⟨?_, xml.mp, ?_⟩
              · rintro (isXmlns | isUri)
                · exact noXmlns isXmlns
                · exact noUri isUri
              · rintro notXml (isUri | ⟨isPrefix, isEmpty⟩)
                · exact notXml (xml.mpr isUri)
                · exact noUndeclaring isPrefix isEmpty
            · rintro ⟨reserved, isXml, notXml⟩
              refine ⟨fun isXmlns => reserved (.inl isXmlns), fun isUri => reserved (.inr isUri),
                ⟨isXml, ?_⟩, ?_⟩
              · intro isUri
                by_contra other
                exact notXml other (.inl isUri)
              · intro isPrefix isEmpty
                by_cases xml : declared = "xml".toList
                · exact xmlNamespace_ne_nil ((isXml xml).symm.trans isEmpty)
                · exact notXml xml (.inr ⟨isPrefix, isEmpty⟩)
          rw [allowedIff]
          split
          · rename_i reserved
            exact iff_of_false (by simp) fun both => both.1.1.1 reserved
          rename_i unreserved
          split
          · rename_i isXml
            split
            · rename_i otherUri
              exact iff_of_false (by simp) fun both => otherUri (both.1.1.2.1 isXml)
            · rename_i sameUri
              rw [inductionHypothesis]
              constructor
              · rintro ⟨allowed, scopeEq⟩
                exact ⟨⟨⟨unreserved, fun _ => not_not.mp sameUri,
                  fun notXml => absurd isXml notXml⟩, allowed⟩, scopeEq⟩
              · rintro ⟨⟨-, allowed⟩, scopeEq⟩
                exact ⟨allowed, scopeEq⟩
          · rename_i notXml
            split
            · rename_i refused
              exact iff_of_false (by simp) fun both => both.1.1.2.2 notXml refused
            · rename_i accepted
              rw [inductionHypothesis]
              constructor
              · rintro ⟨allowed, scopeEq⟩
                exact ⟨⟨⟨unreserved, fun isXml => absurd isXml notXml, fun _ => accepted⟩,
                  allowed⟩, scopeEq⟩
              · rintro ⟨⟨-, allowed⟩, scopeEq⟩
                exact ⟨allowed, scopeEq⟩

theorem resolveNamespace_elementName (scope : Scope) (name : S3XMLQualifiedName) :
    resolveNamespace scope name .elementName = elementNamespace scope name := by
  unfold resolveNamespace elementNamespace Scope.lookup
  split
  · rfl
  · rw [if_neg (by simp)]
    by_cases unprefixed : name.namePrefix = []
    · rw [unprefixed]
      cases found : scope.find? fun binding => binding.boundPrefix == ([] : Text) with
      | none => simp
      | some binding => simp
    · cases found : scope.find? fun binding => binding.boundPrefix == name.namePrefix with
      | none => simp [unprefixed]
      | some binding => simp [unprefixed]

theorem resolveNamespace_attributeName (scope : Scope) (name : S3XMLQualifiedName) :
    resolveNamespace scope name .attributeName = attributeNamespace scope name := by
  unfold resolveNamespace attributeNamespace Scope.lookup
  split
  · rfl
  · by_cases unprefixed : name.namePrefix = []
    · simp [unprefixed]
    · cases found : scope.find? fun binding => binding.boundPrefix == name.namePrefix with
      | none => simp [unprefixed]
      | some binding => simp [unprefixed]

private theorem plainAttributes_cons (attr : S3XMLAttribute) (attributes : List S3XMLAttribute) :
    plainAttributes (attr :: attributes) =
      if (declaredPrefix? attr.name).isSome then plainAttributes attributes
      else attr :: plainAttributes attributes := by
  cases declares : declaredPrefix? attr.name with
  | none => simp [plainAttributes, declares]
  | some declared => simp [plainAttributes, declares]

/-- An attribute name with the URI for the prefix. -/
def expandedName (scope : Scope) (attr : S3XMLAttribute) : Option Text × Text :=
  (attributeNamespace scope attr.name, attr.name.localName)

private theorem validateAttributes_iff_of_seen (scope : Scope)
    {attributes : List S3XMLAttribute} {seen : List (Text × Text)} (distinct : seen.Nodup) :
    validateAttributes scope attributes seen = true ↔
      (∀ attr ∈ plainAttributes attributes,
        (attributeNamespace scope attr.name).isSome = true) ∧
      (seen.map (Prod.map some id) ++
        (plainAttributes attributes).map (expandedName scope)).Nodup := by
  induction attributes generalizing seen with
  | nil =>
      have injective : Function.Injective
          (Prod.map (some : Text → Option Text) (id : Text → Text)) :=
        (Option.some_injective Text).prodMap Function.injective_id
      simpa [validateAttributes, plainAttributes] using (List.Nodup.map injective distinct)
  | cons attr attributes inductionHypothesis =>
      rw [validateAttributes, plainAttributes_cons]
      split
      · exact inductionHypothesis distinct
      rw [resolveNamespace_attributeName, List.forall_mem_cons, List.map_cons, expandedName]
      cases resolves : attributeNamespace scope attr.name with
      | none => simp
      | some uri =>
          dsimp only
          split
          · rename_i repeated
            have member : (uri, attr.name.localName) ∈ seen := by simpa using repeated
            constructor
            · intro impossible
              contradiction
            · rintro ⟨-, names⟩
              exact absurd rfl ((List.nodup_append.mp names).2.2 _
                (List.mem_map_of_mem member) _ List.mem_cons_self)
          · rename_i fresh
            have notSeen : (uri, attr.name.localName) ∉ seen := by simpa using fresh
            rw [inductionHypothesis (List.nodup_append.mpr ⟨distinct, by simp, by
              rintro other member _ (_ | _)
              · rintro rfl
                exact notSeen member
              · contradiction⟩)]
            simp

/-- The attributes that declare nothing have distinct expanded names. -/
theorem validateAttributes_iff (scope : Scope) (attributes : List S3XMLAttribute) :
    validateAttributes scope attributes [] = true ↔
      (∀ attr ∈ plainAttributes attributes,
        (attributeNamespace scope attr.name).isSome = true) ∧
      ((plainAttributes attributes).map (expandedName scope)).Nodup := by
  simpa using validateAttributes_iff_of_seen scope List.nodup_nil

end Httpfs.S3.Xml
