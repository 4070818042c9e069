import Httpfs.S3.Xml.Tags

/-!
# The XML declaration

What the reader accepts in front of the root: a byte order mark and a
declaration of version, encoding and standalone, in this order.
-/

namespace Httpfs.S3.Xml

open Text

/-! ## Scanning -/

private theorem declarationCharacters_eq_some_iff {quote : Char} (isQuote : IsQuote quote)
    {input value rest : Text} :
    declarationCharacters quote input = some (value, rest) ↔
      (∀ byte ∈ value, isNameCharacter byte = true) ∧ input = value ++ quote :: rest := by
  induction input generalizing value with
  | nil => simp [declarationCharacters]
  | cons current input inductionHypothesis =>
      rw [declarationCharacters]
      split
      · rename_i ends
        subst ends
        constructor
        · rintro ⟨⟩
          exact ⟨by simp, rfl⟩
        · rintro ⟨every, eq⟩
          cases value with
          | nil =>
              cases eq
              rfl
          | cons byte value =>
              obtain ⟨same, -⟩ := List.cons.inj eq
              have named := every byte List.mem_cons_self
              rw [← same, isQuote.not_nameCharacter] at named
              contradiction
      · rename_i goesOn
        split
        · rename_i named
          constructor
          · intro parses
            obtain ⟨⟨later, afterValue⟩, parsesLater, returns⟩ :=
              Option.bind_eq_some_iff.mp parses
            cases returns
            obtain ⟨every, rfl⟩ := inductionHypothesis.mp parsesLater
            refine ⟨?_, rfl⟩
            intro byte member
            rcases List.mem_cons.mp member with rfl | isLater
            · exact named
            · exact every byte isLater
          · rintro ⟨every, eq⟩
            cases value with
            | nil => exact absurd (List.cons.inj eq).1 goesOn
            | cons byte value =>
                obtain ⟨rfl, restEq⟩ := List.cons.inj eq
                rw [inductionHypothesis.mpr
                  ⟨fun other member => every other (List.mem_cons_of_mem _ member), restEq⟩]
                rfl
        · rename_i unnamed
          constructor
          · intro impossible
            contradiction
          · rintro ⟨every, eq⟩
            cases value with
            | nil => exact absurd (List.cons.inj eq).1 goesOn
            | cons byte value =>
                obtain ⟨rfl, -⟩ := List.cons.inj eq
                exact absurd (every _ List.mem_cons_self) unnamed

private theorem parseDeclarationValue_eq_some_iff {input value rest : Text} :
    parseDeclarationValue input = some (value, rest) ↔
      ∃ quote, IsQuote quote ∧ (∀ byte ∈ value, isNameCharacter byte = true) ∧
        input = quote :: (value ++ quote :: rest) := by
  constructor
  · intro parses
    cases input with
    | nil => contradiction
    | cons quote tail =>
        rw [parseDeclarationValue] at parses
        split at parses
        · rename_i isQuote
          obtain ⟨every, rfl⟩ := (declarationCharacters_eq_some_iff isQuote).mp parses
          exact ⟨quote, isQuote, every, rfl⟩
        · contradiction
  · rintro ⟨quote, isQuote, every, rfl⟩
    rw [parseDeclarationValue, if_pos (by exact isQuote)]
    exact (declarationCharacters_eq_some_iff isQuote).mpr ⟨every, rfl⟩

/-- An item whatever it declares. -/
def DeclarationItem.Scans (item : DeclarationItem) : Prop :=
  IsName item.name ∧ item.WellFormed item.name fun value =>
    ∀ byte ∈ value, isNameCharacter byte = true

def DeclarationItem.meaning (item : DeclarationItem) : S3XMLAttribute :=
  ⟨⟨[], item.name⟩, item.value⟩

/-- The declaration ends here or white space follows. -/
private def Separated (input : Text) : Prop :=
  "?>".toList <+: input ∨ ∃ byte ∈ input.head?, isXMLWhitespace byte = true

private theorem separated_iff (input : Text) :
    (!"?>".toList.isPrefixOf input && !(input.head?.any isXMLWhitespace)) ≠ true ↔
      Separated input := by
  unfold Separated
  rw [← List.isPrefixOf_iff_prefix]
  cases "?>".toList.isPrefixOf input
  · cases input.head? <;> simp
  · simp

private theorem declarationAttributes_sound {fuel : Nat} {input rest : Text}
    {before result : List S3XMLAttribute} (separated : Separated input)
    (parses : declarationAttributes fuel input before = some (result, rest)) :
    ∃ (items : List DeclarationItem) (trailing : Text), (∀ item ∈ items, item.Scans) ∧
      Blank trailing ∧ result = before ++ items.map DeclarationItem.meaning ∧
      input = items.flatMap DeclarationItem.render ++ (trailing ++ ("?>".toList ++ rest)) := by
  induction fuel generalizing input before with
  | zero => contradiction
  | succ fuel inductionHypothesis =>
      rw [declarationAttributes] at parses
      obtain ⟨blank, inputEq, isBlank, stops⟩ := (@skipWhitespace_eq_iff input _).mp rfl
      dsimp only at parses
      split at parses
      · rename_i ended
        cases parses
        obtain ⟨rest, eq⟩ := List.isPrefixOf_iff_prefix.mp ended
        refine ⟨[], blank, by simp, isBlank, by simp, ?_⟩
        conv_lhs => rw [inputEq, ← eq]
        rw [← eq]
        rfl
      · rename_i goesOn
        have nonempty : blank ≠ [] := by
          rintro rfl
          rw [List.nil_append] at inputEq
          rw [← inputEq] at goesOn stops
          rcases separated with ended | ⟨byte, isHead, blankByte⟩
          · exact goesOn (List.isPrefixOf_iff_prefix.mpr ended)
          · have notBlank := stops byte isHead
            rw [blankByte] at notBlank
            contradiction
        obtain ⟨⟨name, afterName⟩, parsesName, continues⟩ := Option.bind_eq_some_iff.mp parses
        dsimp only at continues
        split at continues
        · contradiction
        rename_i unprefixed
        obtain ⟨afterEquals, parsesEquals, continues⟩ := Option.bind_eq_some_iff.mp continues
        obtain ⟨⟨value, afterValue⟩, parsesValue, continues⟩ :=
          Option.bind_eq_some_iff.mp continues
        dsimp only at continues
        split at continues
        · contradiction
        rename_i isSeparated
        obtain ⟨items, trailing, every, trailingBlank, rfl, rfl⟩ :=
          inductionHypothesis ((separated_iff afterValue).mp isSeparated) continues
        obtain ⟨⟨prefixValid, isLocal⟩, nameEq, -⟩ := parseQualifiedName_eq_some_iff.mp parsesName
        obtain ⟨beforeEquals, after, beforeBlank, afterBlank, rfl, -⟩ :=
          parseEquals_eq_some_iff.mp parsesEquals
        obtain ⟨quote, isQuote, everyByte, rfl⟩ :=
          parseDeclarationValue_eq_some_iff.mp parsesValue
        obtain ⟨namePrefix, localName⟩ := name
        have noPrefix : namePrefix = [] := by simpa using unprefixed
        subst noPrefix
        refine ⟨⟨blank, localName, beforeEquals, after, quote, value⟩ :: items, trailing, ?_,
          trailingBlank, ?_, ?_⟩
        · intro item member
          rcases List.mem_cons.mp member with rfl | later
          · exact ⟨isLocal, nonempty, isBlank, rfl, beforeBlank, afterBlank, isQuote, everyByte⟩
          · exact every item later
        · simp [DeclarationItem.meaning]
        · rw [inputEq, nameEq]
          simp [DeclarationItem.render, S3XMLQualifiedName.render]

private theorem declarationAttributes_complete {items : List DeclarationItem} {trailing : Text}
    (every : ∀ item ∈ items, item.Scans) (isBlank : Blank trailing) (rest : Text)
    (before : List S3XMLAttribute) (fuel : Nat) :
    declarationAttributes (fuel + items.length + 1)
        (items.flatMap DeclarationItem.render ++ (trailing ++ ("?>".toList ++ rest))) before =
      some (before ++ items.map DeclarationItem.meaning, rest) := by
  induction items generalizing before with
  | nil =>
      have skips := skipWhitespace_eq_iff.mpr
        ⟨trailing, (rfl : trailing ++ ("?>".toList ++ rest) = _), isBlank, by
          rintro byte ⟨⟩
          decide⟩
      rw [List.flatMap_nil, List.nil_append, List.length_nil, declarationAttributes, skips]
      simp [List.isPrefixOf]
  | cons item items inductionHypothesis =>
      obtain ⟨isName, wellFormed⟩ := every item List.mem_cons_self
      have everyLater := fun other member => every other (List.mem_cons_of_mem _ member)
      have later := @inductionHypothesis everyLater (before ++ [item.meaning])
      obtain ⟨following, followingEq⟩ : ∃ following, items.flatMap DeclarationItem.render ++
          (trailing ++ ("?>".toList ++ rest)) = following := ⟨_, rfl⟩
      have separated : Separated following := by
        rw [← followingEq]
        cases items with
        | nil =>
            cases trailing with
            | nil => exact .inl ⟨rest, rfl⟩
            | cons byte trailing => exact .inr ⟨byte, rfl, isBlank byte List.mem_cons_self⟩
        | cons other items =>
            have otherWellFormed := (everyLater other List.mem_cons_self).2
            obtain ⟨byte, blank, blankEq⟩ := List.exists_cons_of_ne_nil otherWellFormed.separated
            refine .inr ⟨byte, by simp [DeclarationItem.render, blankEq], ?_⟩
            exact otherWellFormed.blank byte (by simp [blankEq])
      obtain ⟨first, nameTail, nameEq⟩ := List.exists_cons_of_ne_nil isName.ne_nil
      have start : isNameStart first = true := by
        rw [nameEq] at isName
        exact isName.1
      have inputEq : (item :: items).flatMap DeclarationItem.render ++
          (trailing ++ ("?>".toList ++ rest)) = item.blank ++ (item.name ++ (item.beforeEquals ++
            '=' :: (item.afterEquals ++ item.quote :: (item.value ++ item.quote ::
              following)))) := by
        rw [← followingEq]
        simp [DeclarationItem.render]
      have skips := skipWhitespace_eq_iff.mpr ⟨item.blank, inputEq, wellFormed.blank, by
        rw [nameEq]
        rintro byte ⟨⟩
        exact not_blank_of_isNameStart start⟩
      have parsesName := (@parseQualifiedName_eq_some_iff (item.name ++ (item.beforeEquals ++
        '=' :: (item.afterEquals ++ item.quote :: (item.value ++ item.quote :: following))))
        _ ⟨[], item.name⟩).mpr ⟨⟨.inl rfl, isName⟩, rfl, wellFormed.before.endsName (by
          rintro byte ⟨⟩
          decide)⟩
      have parsesEquals := parseEquals_eq_some_iff.mpr ⟨item.beforeEquals, item.afterEquals,
        wellFormed.before, wellFormed.after,
        (rfl : item.beforeEquals ++ '=' :: (item.afterEquals ++ item.quote :: (item.value ++
          item.quote :: following)) = _), by
        rintro byte ⟨⟩
        exact IsQuote.not_blank wellFormed.quote⟩
      have parsesValue := parseDeclarationValue_eq_some_iff.mpr ⟨item.quote, wellFormed.quote,
        wellFormed.value, (rfl : item.quote :: (item.value ++ item.quote :: following) = _)⟩
      have notEnded : ¬ "?>".toList.isPrefixOf (item.name ++ (item.beforeEquals ++
          '=' :: (item.afterEquals ++ item.quote :: (item.value ++ item.quote :: following)))) =
          true := by
        rw [nameEq]
        intro ended
        obtain ⟨same, -⟩ := List.cons_prefix_cons.mp (List.isPrefixOf_iff_prefix.mp ended)
        subst same
        exact absurd start (by decide)
      rw [List.length_cons, show fuel + (items.length + 1) + 1 = fuel + items.length + 1 + 1 by
        omega, declarationAttributes, skips]
      dsimp only
      rw [if_neg notEnded, parsesName]
      simp only [Option.bind_eq_bind, Option.bind_some]
      rw [if_neg (by simp), parsesEquals]
      simp only [Option.bind_some, parsesValue]
      rw [if_neg ((separated_iff following).mpr separated), ← followingEq]
      refine later.trans ?_
      simp

/-! ## The rules of the declaration -/

private theorem isNameCharacter_of_toLower {byte : Char}
    (named : isNameCharacter byte.toLower = true) : isNameCharacter byte = true := by
  by_cases upper : 'A' ≤ byte ∧ byte ≤ 'Z'
  · simp [isNameCharacter, isNameStart, upper.1, upper.2]
  · have same : byte.toLower = byte :=
      toLower_of_not_upper fun isUpper => upper ⟨isUpper.1, isUpper.2⟩
    rwa [same] at named

private theorem nameCharacters_of_lower {text other : Text} (same : lower text = other)
    (every : ∀ byte ∈ other, isNameCharacter byte = true) :
    ∀ byte ∈ text, isNameCharacter byte = true := by
  intro byte member
  apply isNameCharacter_of_toLower
  apply every
  rw [← same]
  exact List.mem_map_of_mem member

/-- What the attributes of a declaration must be. -/
structure DeclarationItems (version : DeclarationItem) (encoding standalone : Option DeclarationItem)
    : Prop where
  version : version.name = "version".toList ∧ version.value = "1.0".toList
  encoding : ∀ item ∈ encoding, item.name = "encoding".toList ∧ lower item.value = "utf-8".toList
  standalone : ∀ item ∈ standalone, item.name = "standalone".toList ∧
    (item.value = "yes".toList ∨ item.value = "no".toList)

/-- What may stand behind the encoding. -/
private theorem standalone_iff (others : List DeclarationItem) :
    (match some (others.map DeclarationItem.meaning) with
      | none => false
      | some [] => true
      | some (standalone :: others) =>
          standalone.name.localName = "standalone".toList &&
            (standalone.value = "yes".toList || standalone.value = "no".toList) &&
            others.isEmpty) = true ↔
      ∃ standalone : Option DeclarationItem, others = standalone.toList ∧
        ∀ item ∈ standalone, item.name = "standalone".toList ∧
          (item.value = "yes".toList ∨ item.value = "no".toList) := by
  cases others with
  | nil => exact iff_of_true rfl ⟨none, rfl, by simp⟩
  | cons standalone others =>
      rw [List.map_cons]
      dsimp only
      rw [Bool.and_eq_true, Bool.and_eq_true, Bool.or_eq_true, decide_eq_true_eq,
        decide_eq_true_eq, decide_eq_true_eq, List.isEmpty_iff, List.map_eq_nil_iff]
      constructor
      · rintro ⟨⟨name, value⟩, rfl⟩
        refine ⟨some standalone, rfl, ?_⟩
        rintro item ⟨⟩
        exact ⟨name, value⟩
      · rintro ⟨optional, eq, rule⟩
        cases optional with
        | none => contradiction
        | some item =>
            obtain ⟨rfl, rfl⟩ := List.cons.inj eq
            exact ⟨rule _ rfl, rfl⟩

private theorem declarationIsValid_iff (items : List DeclarationItem) :
    declarationIsValid (items.map DeclarationItem.meaning) = true ↔
      ∃ version encoding standalone, items = version :: (encoding.toList ++ standalone.toList) ∧
        DeclarationItems version encoding standalone := by
  constructor
  · intro valid
    cases items with
    | nil => contradiction
    | cons version rest =>
        rw [List.map_cons, declarationIsValid.eq_def] at valid
        dsimp only at valid
        split at valid
        · contradiction
        rename_i versionIs
        obtain ⟨versionName, versionValue⟩ := not_or.mp versionIs
        have versionRule := And.intro (not_not.mp versionName) (not_not.mp versionValue)
        cases rest with
        | nil => exact ⟨version, none, none, rfl, versionRule, by simp, by simp⟩
        | cons encoding others =>
            rw [List.map_cons] at valid
            dsimp only at valid
            by_cases isEncoding : encoding.meaning.name.localName = "encoding".toList
            · rw [if_pos isEncoding] at valid
              by_cases isUtf8 : lower encoding.meaning.value = "utf-8".toList
              · rw [if_pos isUtf8] at valid
                obtain ⟨standalone, rfl, standaloneRule⟩ := (standalone_iff others).mp valid
                refine ⟨version, some encoding, standalone, rfl, versionRule, ?_, standaloneRule⟩
                rintro item ⟨⟩
                exact ⟨isEncoding, isUtf8⟩
              · rw [if_neg isUtf8] at valid
                contradiction
            · rw [if_neg isEncoding] at valid
              obtain ⟨standalone, standaloneEq, standaloneRule⟩ :=
                (standalone_iff (encoding :: others)).mp valid
              exact ⟨version, none, standalone, by rw [standaloneEq]; rfl, versionRule, by simp,
                standaloneRule⟩
  · rintro ⟨version, encoding, standalone, rfl, ⟨versionName, versionValue⟩, encodingRule,
      standaloneRule⟩
    have versionRule : ¬ (version.meaning.name.localName ≠ "version".toList ∨
        version.meaning.value ≠ "1.0".toList) :=
      not_or.mpr ⟨not_not.mpr versionName, not_not.mpr versionValue⟩
    have standaloneValid := (standalone_iff standalone.toList).mpr
      ⟨standalone, rfl, standaloneRule⟩
    rw [List.map_cons, declarationIsValid.eq_def]
    dsimp only
    rw [if_neg versionRule]
    cases encoding with
    | some encoding =>
        obtain ⟨name, utf8⟩ := encodingRule encoding rfl
        simp only [Option.toList_some, List.cons_append, List.nil_append, List.map_cons]
        rw [if_pos (by exact name), if_pos (by exact utf8)]
        exact standaloneValid
    | none =>
        cases standalone with
        | none => rfl
        | some standalone =>
            have notEncoding : ¬ standalone.meaning.name.localName = "encoding".toList := by
              intro same
              have impossible := (standaloneRule standalone rfl).1.symm.trans same
              revert impossible
              decide
            simp only [Option.toList_none, Option.toList_some, List.nil_append, List.map_cons]
            rw [if_neg notEncoding]
            exact standaloneValid

private theorem items_length_le_render (items : List DeclarationItem) :
    items.length ≤ (items.flatMap DeclarationItem.render).length := by
  induction items with
  | nil => exact le_rfl
  | cons item items inductionHypothesis =>
      have positive : 0 < item.render.length := by
        simp only [DeclarationItem.render, List.length_append, List.length_cons]
        omega
      rw [List.flatMap_cons, List.length_append, List.length_cons]
      omega

theorem DeclarationSyntax.WellFormed.scans {declaration : DeclarationSyntax}
    (wellFormed : declaration.WellFormed) : ∀ item ∈ declaration.items, item.Scans := by
  obtain ⟨version, encoding, standalone, -⟩ := wellFormed
  have scans : ∀ {item : DeclarationItem} {name : Text} {allowed : Text → Prop},
      item.WellFormed name allowed → IsName name →
      (∀ value, allowed value → ∀ byte ∈ value, isNameCharacter byte = true) → item.Scans := by
    intro item name allowed itemWellFormed isName bytes
    obtain ⟨separated, blank, nameEq, before, after, quote, value⟩ := itemWellFormed
    exact ⟨nameEq ▸ isName, separated, blank, rfl, before, after, quote, bytes _ value⟩
  intro item member
  rw [items, List.mem_cons, List.mem_append, Option.mem_toList, Option.mem_toList] at member
  rcases member with rfl | isEncoding | isStandalone
  · exact scans version ⟨by decide, by decide⟩ (by rintro value rfl; decide)
  · exact scans (encoding item isEncoding) ⟨by decide, by decide⟩
      fun value same => nameCharacters_of_lower same (by decide)
  · exact scans (standalone item isStandalone) ⟨by decide, by decide⟩
      (by rintro value (rfl | rfl) <;> decide)

/-- A declaration is accepted exactly in the order and with the values of the grammar. -/
theorem parseXMLDeclaration_eq_some_iff {input rest : Text} (opens : "<?xml".toList <+: input) :
    parseXMLDeclaration input = some rest ↔
      ∃ declaration : DeclarationSyntax, declaration.WellFormed ∧
        input = declaration.render ++ rest := by
  obtain ⟨content, rfl⟩ := opens
  unfold parseXMLDeclaration
  rw [List.drop_left]
  dsimp only
  constructor
  · intro parses
    split at parses
    · contradiction
    rename_i separated
    have headBlank : ∃ byte ∈ content.head?, isXMLWhitespace byte = true := by
      cases headEq : content.head? with
      | none => simp [headEq] at separated
      | some byte => exact ⟨byte, rfl, by simpa [headEq] using separated⟩
    obtain ⟨⟨attributes, left⟩, parsesAttributes, continues⟩ := Option.bind_eq_some_iff.mp parses
    dsimp only at continues
    split at continues
    · rename_i valid
      cases continues
      obtain ⟨items, trailing, every, isBlank, rfl, rfl⟩ :=
        declarationAttributes_sound (.inr headBlank) parsesAttributes
      rw [List.nil_append] at valid
      obtain ⟨version, encoding, standalone, rfl, versionRule, encodingRule, standaloneRule⟩ :=
        (declarationIsValid_iff items).mp valid
      have wellFormed : ∀ {item : DeclarationItem} {name : Text} {allowed : Text → Prop},
          item.Scans → item.name = name → allowed item.value → item.WellFormed name allowed := by
        rintro item name allowed ⟨-, separated, blank, -, before, after, quote, -⟩ nameEq value
        exact ⟨separated, blank, nameEq, before, after, quote, value⟩
      refine ⟨⟨version, encoding, standalone, trailing⟩, ⟨?_, ?_, ?_, isBlank⟩, ?_⟩
      · exact wellFormed (every version List.mem_cons_self) versionRule.1 versionRule.2
      · intro item isItem
        have isItem : encoding = some item := isItem
        exact wellFormed (every item (by simp [isItem])) (encodingRule item isItem).1
          (encodingRule item isItem).2
      · intro item isItem
        have isItem : standalone = some item := isItem
        exact wellFormed (every item (by simp [isItem])) (standaloneRule item isItem).1
          (standaloneRule item isItem).2
      · simp only [DeclarationSyntax.render_eq, DeclarationSyntax.items, List.append_assoc]
    · contradiction
  · rintro ⟨declaration, wellFormed, inputEq⟩
    have contentEq : content = declaration.items.flatMap DeclarationItem.render ++
        (declaration.trailing ++ ("?>".toList ++ rest)) := by
      apply List.append_cancel_left
      rw [inputEq]
      simp only [DeclarationSyntax.render_eq, List.append_assoc]
    obtain ⟨byte, blank, blankEq⟩ := List.exists_cons_of_ne_nil wellFormed.version.separated
    have headBlank : content.head?.any isXMLWhitespace = true := by
      rw [contentEq]
      simp [DeclarationSyntax.items, DeclarationItem.render, blankEq,
        wellFormed.version.blank byte (by simp [blankEq])]
    rw [if_neg (by simp [headBlank])]
    have short := items_length_le_render declaration.items
    have room : declaration.items.length + 1 ≤ content.length + 1 := by
      rw [contentEq]
      simp only [List.length_append]
      omega
    have parses := declarationAttributes_complete wellFormed.scans wellFormed.trailing rest []
      (content.length + 1 - (declaration.items.length + 1))
    rw [Nat.add_assoc, Nat.sub_add_cancel room, ← contentEq] at parses
    rw [parses]
    simp only [Option.bind_eq_bind, Option.bind_some, List.nil_append]
    apply if_pos
    refine (declarationIsValid_iff _).mpr ⟨_, _, _, rfl, ⟨wellFormed.version.name,
      wellFormed.version.value⟩, ?_, ?_⟩
    · intro item isItem
      exact ⟨(wellFormed.encoding item isItem).name, (wellFormed.encoding item isItem).value⟩
    · intro item isItem
      exact ⟨(wellFormed.standalone item isItem).name, (wellFormed.standalone item isItem).value⟩

end Httpfs.S3.Xml
