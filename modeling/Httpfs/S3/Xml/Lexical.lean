import Httpfs.S3.Xml.Grammar

/-!
# Scanning names, references and values

Each scanner of the reader against the grammar: what it returns is the piece
at the start of its input, and such a piece is what it returns.
-/

namespace Httpfs.S3.Xml

open Text

/-! ## Characters -/

/-- The UTF-8 functions follow the encoding of code points. -/
structure Utf8Proc.Lawful (utf8Proc : Utf8Proc) : Prop where
  isValid_iff : ∀ text, utf8Proc.isValid text = true ↔ ∃ chars, text = utf8 chars
  utf8ToCodepoint_eq : ∀ char rest, utf8Proc.utf8ToCodepoint (utf8Bytes char ++ rest) =
    (char.toNat, (utf8Bytes char).length)
  codepointToUtf8_eq : ∀ char : Char,
    utf8Proc.codepointToUtf8 char.toNat = some (utf8Bytes char)

/-- An implementation that follows it. -/
def Utf8Proc.standard : Utf8Proc where
  isValid text := text.all (fun byte => byte.toNat < 256) && (toBytes text).validateUTF8
  utf8ToCodepoint text :=
    match (toBytes text).utf8DecodeChar? 0 with
    | some char => (char.toNat, (utf8Bytes char).length)
    | none => (0, 1)
  codepointToUtf8 codepoint :=
    if codepoint.isValidChar then some (utf8Bytes (Char.ofNat codepoint)) else none

theorem Utf8Proc.standard_lawful : Utf8Proc.standard.Lawful := by
  constructor
  · intro text
    simp only [standard, Bool.and_eq_true, List.all_eq_true, decide_eq_true_eq,
      ByteArray.validateUTF8_eq_true_iff]
    constructor
    · rintro ⟨bytes, chars, encodes⟩
      rw [← toBytes_utf8] at encodes
      exact ⟨chars, eq_of_toBytes_eq bytes (fun _ => toNat_lt_of_mem_utf8) encodes⟩
    · rintro ⟨chars, rfl⟩
      exact ⟨fun _ => toNat_lt_of_mem_utf8, chars, toBytes_utf8 chars⟩
  · intro char rest
    simp only [standard, toBytes_append, toBytes_utf8Bytes,
      ByteArray.utf8DecodeChar?_utf8EncodeChar_append]
  · intro char
    have valid : char.toNat.isValidChar := char.valid
    simp only [standard, if_pos valid, Char.ofNat_toNat]

/-- The bytes of XML characters. -/
def XmlText (text : Text) : Prop :=
  Encodes (fun char => isXMLCharacter char.toNat = true) text

/-- Bytes that are XML characters by themselves. -/
def Ascii (text : Text) : Prop :=
  ∀ byte ∈ text, byte.toNat < 128 ∧ isXMLCharacter byte.toNat = true

theorem xmlText_append_cons_iff {front back : Text} {byte : Char}
    (ascii : byte.toNat < 128) (character : isXMLCharacter byte.toNat = true) :
    XmlText (front ++ byte :: back) ↔ XmlText front ∧ XmlText back := by
  constructor
  · exact Encodes.of_append_cons ascii
  · rintro ⟨left, right⟩
    have whole : XmlText (front ++ ([byte] ++ back)) :=
      left.append (Encodes.append (encodes_ascii (by simpa using ⟨ascii, character⟩)) right)
    exact whole

theorem xmlText_ascii_append_iff {front back : Text} (ascii : Ascii front) :
    XmlText (front ++ back) ↔ XmlText back := by
  induction front with
  | nil => rfl
  | cons byte front inductionHypothesis =>
      obtain ⟨isAscii, character⟩ := ascii byte List.mem_cons_self
      have cut := @xmlText_append_cons_iff [] (front ++ back) byte isAscii character
      rw [List.cons_append]
      refine cut.trans ?_
      rw [inductionHypothesis fun other member => ascii other (List.mem_cons_of_mem _ member)]
      exact and_iff_right encodes_nil

variable {utf8Proc : Utf8Proc}

theorem validateCodepoints_utf8 (lawful : utf8Proc.Lawful) (chars : List Char)
    {fuel : Nat} (enough : (utf8 chars).length ≤ fuel) :
    validateCodepoints utf8Proc fuel (utf8 chars) =
      chars.all fun char => isXMLCharacter char.toNat := by
  induction chars generalizing fuel with
  | nil => cases fuel <;> rfl
  | cons char chars inductionHypothesis =>
      have positive := List.length_pos_iff.mpr (utf8Bytes_ne_nil char)
      rw [utf8_cons, List.length_append] at enough
      cases fuel with
      | zero => omega
      | succ fuel =>
          have nonempty : (utf8Bytes char ++ utf8 chars).isEmpty = false := by
            simp [utf8Bytes_ne_nil]
          rw [utf8_cons, validateCodepoints, nonempty, lawful.utf8ToCodepoint_eq]
          simp only [Bool.false_eq_true, if_false, List.drop_left, List.all_cons]
          rw [inductionHypothesis (by omega)]

/-- Exactly the encodings of XML characters are let through. -/
theorem validateCharacters_iff (lawful : utf8Proc.Lawful) (input : Text) :
    validateCharacters utf8Proc input = true ↔ XmlText input := by
  rw [validateCharacters, Bool.and_eq_true, lawful.isValid_iff]
  constructor
  · rintro ⟨⟨chars, rfl⟩, every⟩
    rw [validateCodepoints_utf8 lawful chars le_rfl, List.all_eq_true] at every
    exact ⟨chars, rfl, every⟩
  · rintro ⟨chars, rfl, every⟩
    rw [validateCodepoints_utf8 lawful chars le_rfl, List.all_eq_true]
    exact ⟨⟨chars, rfl⟩, every⟩

/-! ## White space -/

theorem Blank.append {front back : Text} (left : Blank front) (right : Blank back) :
    Blank (front ++ back) := by
  intro byte member
  rcases List.mem_append.mp member with first | second
  · exact left byte first
  · exact right byte second

theorem blank_nil : Blank [] := by
  simp [Blank]

theorem ascii_of_blank {blank : Text} (isBlank : Blank blank) : Ascii blank := by
  intro byte member
  have isByte := isBlank byte member
  simp only [isXMLWhitespace, Bool.or_eq_true, beq_iff_eq] at isByte
  rcases isByte with ((rfl | rfl) | rfl) | rfl <;> decide

/-- What skipping white space leaves. -/
theorem skipWhitespace_eq_iff {input rest : Text} :
    skipWhitespace input = rest ↔
      ∃ blank, input = blank ++ rest ∧ Blank blank ∧
        ∀ byte ∈ rest.head?, isXMLWhitespace byte = false := by
  constructor
  · intro skips
    obtain ⟨eq, every, stops⟩ := span_iff.mp ⟨rfl, skips⟩
    exact ⟨_, eq, every, stops⟩
  · rintro ⟨blank, eq, every, stops⟩
    exact (span_iff.mpr ⟨eq, every, stops⟩).2

/-! ## Names -/

theorem isNameCharacter_of_isNameStart {byte : Char} (start : isNameStart byte = true) :
    isNameCharacter byte = true := by
  simp [isNameCharacter, start]

theorem IsName.characters {name : Text} (isName : IsName name) :
    ∀ byte ∈ name, isNameCharacter byte = true := by
  cases name with
  | nil => simp
  | cons first rest =>
      intro byte member
      rcases List.mem_cons.mp member with rfl | later
      · exact isNameCharacter_of_isNameStart isName.1
      · exact isName.2 byte later

theorem parseName_eq_some_iff {input name rest : Text} :
    parseName input = some (name, rest) ↔
      IsName name ∧ input = name ++ rest ∧ ∀ byte ∈ rest.head?, isNameCharacter byte = false := by
  constructor
  · intro parses
    cases input with
    | nil => contradiction
    | cons first tail =>
        rw [parseName] at parses
        split at parses
        · rename_i start
          obtain ⟨nameEq, restEq⟩ := Prod.mk.inj (Option.some.inj parses)
          obtain ⟨eq, every, stops⟩ := span_iff.mp ⟨nameEq, restEq⟩
          refine ⟨?_, eq, stops⟩
          rw [List.takeWhile_cons_of_pos (isNameCharacter_of_isNameStart start)] at nameEq
          subst nameEq
          exact ⟨start, fun byte member => every byte (List.mem_cons_of_mem _ member)⟩
        · contradiction
  · rintro ⟨isName, rfl, stops⟩
    obtain ⟨nameEq, restEq⟩ := span_iff.mpr
      (show name ++ rest = name ++ rest ∧ _ from ⟨rfl, isName.characters, stops⟩)
    cases name with
    | nil => exact isName.elim
    | cons first tail =>
        rw [List.cons_append] at nameEq restEq ⊢
        rw [parseName, if_pos isName.1, nameEq, restEq]

theorem ascii_of_isNameCharacter {byte : Char} (named : isNameCharacter byte = true) :
    byte.toNat < 128 ∧ isXMLCharacter byte.toNat = true := by
  have bounds : ∀ {low high : Char}, low ≤ byte → byte ≤ high →
      low.toNat ≤ byte.toNat ∧ byte.toNat ≤ high.toNat := fun atLeast atMost =>
    ⟨UInt32.le_iff_toNat_le.mp atLeast, UInt32.le_iff_toNat_le.mp atMost⟩
  have printable : ∀ {low high : Nat}, 32 ≤ low → high < 128 →
      low ≤ byte.toNat ∧ byte.toNat ≤ high →
      byte.toNat < 128 ∧ isXMLCharacter byte.toNat = true := by
    rintro low high lowBound highBound ⟨atLeast, atMost⟩
    refine ⟨by omega, ?_⟩
    simp only [isXMLCharacter, Bool.or_eq_true, Bool.and_eq_true, beq_iff_eq, decide_eq_true_eq]
    omega
  simp only [isNameCharacter, isNameStart, Bool.or_eq_true, Bool.and_eq_true, decide_eq_true_eq,
    beq_iff_eq] at named
  rcases named with ((((⟨low, high⟩ | ⟨low, high⟩) | rfl) | ⟨low, high⟩) | rfl) | rfl
  · exact printable (by decide) (by decide) (bounds low high)
  · exact printable (by decide) (by decide) (bounds low high)
  · decide
  · exact printable (by decide) (by decide) (bounds low high)
  · decide
  · decide

theorem IsName.ascii {name : Text} (isName : IsName name) : Ascii name :=
  fun byte member => ascii_of_isNameCharacter (isName.characters byte member)

/-- The byte cannot continue a name. -/
def EndsName (rest : Text) : Prop :=
  ∀ byte ∈ rest.head?, isNameCharacter byte = false ∧ byte ≠ ':'

theorem IsName.ne_nil {name : Text} (isName : IsName name) : name ≠ [] := by
  rintro rfl
  exact isName

private theorem colon_notNameCharacter : isNameCharacter ':' = false := by
  decide

theorem parseQualifiedName_eq_some_iff {input rest : Text} {name : S3XMLQualifiedName} :
    parseQualifiedName input = some (name, rest) ↔
      name.IsValid ∧ input = name.render ++ rest ∧ EndsName rest := by
  constructor
  · intro parses
    obtain ⟨⟨first, afterFirst⟩, parsesFirst, continues⟩ := Option.bind_eq_some_iff.mp parses
    clear parses
    obtain ⟨isFirst, rfl, stops⟩ := parseName_eq_some_iff.mp parsesFirst
    dsimp only at continues
    split at continues
    · obtain ⟨⟨localName, afterLocal⟩, parsesLocal, returns⟩ :=
        Option.bind_eq_some_iff.mp continues
      clear continues
      obtain ⟨isLocal, rfl, stopsLocal⟩ := parseName_eq_some_iff.mp parsesLocal
      dsimp only at returns
      split at returns
      · contradiction
      · rename_i noColon
        cases returns
        refine ⟨⟨.inr isFirst, isLocal⟩, ?_, ?_⟩
        · simp [S3XMLQualifiedName.render, isFirst.ne_nil]
        · intro byte member
          refine ⟨stopsLocal byte member, ?_⟩
          rintro rfl
          exact noColon member
    · rename_i noColon
      cases continues
      refine ⟨⟨.inl rfl, isFirst⟩, by simp [S3XMLQualifiedName.render], ?_⟩
      intro byte member
      refine ⟨stops byte member, ?_⟩
      rintro rfl
      obtain ⟨tail, rfl⟩ := List.head?_eq_some_iff.mp member
      exact noColon tail rfl
  · rintro ⟨⟨prefixValid, isLocal⟩, rfl, ends⟩
    have endsLocal : ∀ byte ∈ rest.head?, isNameCharacter byte = false :=
      fun byte member => (ends byte member).1
    have noColon : rest.head? ≠ some ':' := fun colon => (ends ':' colon).2 rfl
    rcases name with ⟨namePrefix, localName⟩
    rcases prefixValid with unprefixed | isPrefix
    · dsimp only at unprefixed isLocal
      subst unprefixed
      have parses := parseName_eq_some_iff.mpr ⟨isLocal, rfl, endsLocal⟩
      rw [S3XMLQualifiedName.render, if_pos (by rfl), parseQualifiedName, parses]
      simp only [Option.bind_eq_bind, Option.bind_some]
      split
      · exact absurd rfl noColon
      · rfl
    · dsimp only at isPrefix isLocal
      have nonempty : ¬ namePrefix.isEmpty = true := by simpa using isPrefix.ne_nil
      have parses := parseName_eq_some_iff.mpr
        ⟨isPrefix, (rfl : namePrefix ++ ':' :: (localName ++ rest) = _), by
          rintro byte ⟨⟩
          exact colon_notNameCharacter⟩
      have parsesLocal := parseName_eq_some_iff.mpr ⟨isLocal, rfl, endsLocal⟩
      rw [S3XMLQualifiedName.render, if_neg nonempty, List.append_assoc, List.cons_append,
        parseQualifiedName, parses]
      simp only [Option.bind_eq_bind, Option.bind_some, parsesLocal, if_neg noColon]

/-! ## References -/

section Digits

variable {base : Nat}

private theorem digitsValue_cons (base value : Nat) (digit : Char) (digits : Text) :
    (digit :: digits).foldl (fun value digit => value * base + (digitValue base digit).getD 0)
        value =
      digits.foldl (fun value digit => value * base + (digitValue base digit).getD 0)
        (value * base + (digitValue base digit).getD 0) :=
  rfl

/-- The digits so far never denote more than all of them. -/
private theorem le_digitsValue (positive : 0 < base) (digits : Text) (value : Nat) :
    value ≤ digits.foldl (fun value digit => value * base + (digitValue base digit).getD 0)
      value := by
  induction digits generalizing value with
  | nil => exact le_rfl
  | cons digit digits inductionHypothesis =>
      rw [digitsValue_cons]
      calc value ≤ value * base := Nat.le_mul_of_pos_right value positive
        _ ≤ value * base + (digitValue base digit).getD 0 := Nat.le_add_right _ _
        _ ≤ _ := inductionHypothesis _

theorem digitValue_lt (isBase : base = 10 ∨ base = 16) {digit : Char} {value : Nat}
    (isDigit : digitValue base digit = some value) : value < base := by
  unfold digitValue at isDigit
  split at isDigit
  · rename_i decimal
    have most : digit.toNat ≤ 57 := UInt32.le_iff_toNat_le.mp decimal.2
    have valueEq : digit.toNat - 48 = value := Option.some.inj isDigit
    omega
  · split at isDigit
    · rename_i lower
      have most : digit.toNat ≤ 102 := UInt32.le_iff_toNat_le.mp lower.2.2
      have valueEq : digit.toNat - 97 + 10 = value := Option.some.inj isDigit
      omega
    · split at isDigit
      · rename_i upper
        have most : digit.toNat ≤ 70 := UInt32.le_iff_toNat_le.mp upper.2.2
        have valueEq : digit.toNat - 65 + 10 = value := Option.some.inj isDigit
        omega
      · contradiction

/-- The bounded accumulation gives the number the digits denote, if it is a code point. -/
theorem accumulateDigits_eq_some_iff (isBase : base = 10 ∨ base = 16) {codepoint : Nat}
    (bound : codepoint ≤ 0x10FFFF) {digits : Text} {value : Nat} :
    accumulateDigits base codepoint digits = some value ↔
      (∀ digit ∈ digits, (digitValue base digit).isSome = true) ∧
        digits.foldl (fun value digit => value * base + (digitValue base digit).getD 0)
          codepoint = value ∧ value ≤ 0x10FFFF := by
  have positive : 0 < base := by omega
  induction digits generalizing codepoint with
  | nil =>
      simp only [accumulateDigits, Option.some.injEq, List.not_mem_nil, false_implies,
        implies_true, List.foldl_nil, true_and]
      constructor
      · rintro rfl
        exact ⟨rfl, bound⟩
      · exact fun same => same.1
  | cons digit digits inductionHypothesis =>
      rw [accumulateDigits, digitsValue_cons]
      cases isDigit : digitValue base digit with
      | none => simp [isDigit]
      | some digitIs =>
          have small := digitValue_lt isBase isDigit
          have fits : codepoint ≤ (0x10FFFF - digitIs) / base ↔
              codepoint * base + digitIs ≤ 0x10FFFF := by
            rw [Nat.le_div_iff_mul_le positive]
            omega
          simp only [Option.bind_eq_bind, Option.bind_some, Option.getD_some, List.mem_cons,
            forall_eq_or_imp, isDigit, Option.isSome_some, true_and]
          split
          · rename_i past
            rcases past with impossible | past
            · omega
            · have exceeds : ¬ codepoint * base + digitIs ≤ 0x10FFFF :=
                fun within => absurd (fits.mpr within) (Nat.not_le_of_lt past)
              constructor
              · intro impossible
                contradiction
              · rintro ⟨_, rfl, within⟩
                exact absurd ((le_digitsValue positive digits _).trans within) exceeds
          · rename_i within
            have within : codepoint ≤ (0x10FFFF - digitIs) / base :=
              Nat.le_of_not_lt fun past => within (.inr past)
            exact inductionHypothesis (fits.mp within)

private theorem le_of_isXMLCharacter {codepoint : Nat}
    (character : isXMLCharacter codepoint = true) : codepoint ≤ 0x10FFFF := by
  simp only [isXMLCharacter, Bool.or_eq_true, Bool.and_eq_true, beq_iff_eq,
    decide_eq_true_eq] at character
  omega

private theorem toNat_ofNat_of_isXMLCharacter {codepoint : Nat}
    (character : isXMLCharacter codepoint = true) : (Char.ofNat codepoint).toNat = codepoint := by
  have valid : codepoint.isValidChar := by
    simp only [isXMLCharacter, Bool.or_eq_true, Bool.and_eq_true, beq_iff_eq,
      decide_eq_true_eq] at character
    unfold Nat.isValidChar
    omega
  rw [Char.ofNat, dif_pos valid]
  rfl

theorem decodeCharacterReference_eq_some_iff (lawful : utf8Proc.Lawful)
    (isBase : base = 10 ∨ base = 16) {digits decoded : Text} :
    decodeCharacterReference utf8Proc base digits = some decoded ↔
      Reference.DigitsWellFormed base digits ∧
        decoded = utf8Bytes (Char.ofNat (digitsValue base digits)) := by
  unfold decodeCharacterReference
  constructor
  · intro decodes
    split at decodes
    · contradiction
    · rename_i nonempty
      obtain ⟨codepoint, accumulates, decodes⟩ := Option.bind_eq_some_iff.mp decodes
      obtain ⟨every, rfl, -⟩ :=
        (accumulateDigits_eq_some_iff isBase (Nat.zero_le _)).mp accumulates
      split at decodes
      · rename_i character
        have character : isXMLCharacter (digitsValue base digits) = true := character
        refine ⟨⟨by simpa using nonempty, every, character⟩, ?_⟩
        have encodes := lawful.codepointToUtf8_eq (Char.ofNat (digitsValue base digits))
        rw [toNat_ofNat_of_isXMLCharacter character] at encodes
        exact Option.some.inj (decodes.symm.trans encodes)
      · contradiction
  · rintro ⟨⟨nonempty, every, character⟩, rfl⟩
    have accumulates := (accumulateDigits_eq_some_iff isBase (Nat.zero_le 0x10FFFF)).mpr
      ⟨every, rfl, le_of_isXMLCharacter character⟩
    have encodes := lawful.codepointToUtf8_eq (Char.ofNat (digitsValue base digits))
    rw [toNat_ofNat_of_isXMLCharacter character] at encodes
    rw [if_neg (by simpa using nonempty), accumulates]
    simp only [Option.bind_eq_bind, Option.bind_some]
    rw [← encodes]
    exact if_pos character

end Digits

theorem decodeReference_decimal {digit : Char} {digits : Text} (decimal : digit ≠ 'x') :
    decodeReference utf8Proc ('#' :: digit :: digits) =
      decodeCharacterReference utf8Proc 10 (digit :: digits) := by
  have named : ∀ name ∈ ["lt", "gt", "amp", "apos", "quot"],
      '#' :: digit :: digits ≠ name.toList := by
    simp
  simp only [List.mem_cons, List.not_mem_nil, or_false, forall_eq_or_imp, forall_eq] at named
  obtain ⟨notLt, notGt, notAmp, notApos, notQuot⟩ := named
  unfold decodeReference
  rw [if_neg notLt, if_neg notGt, if_neg notAmp, if_neg notApos, if_neg notQuot]
  split
  · rename_i eq
    exact absurd (List.cons.inj (List.cons.inj eq).2).1 decimal
  · rename_i eq
    rw [← (List.cons.inj eq).2]
  · rename_i none
    exact (none _ rfl).elim

theorem decodeReference_eq_some_iff (lawful : utf8Proc.Lawful) {body decoded : Text} :
    decodeReference utf8Proc body = some decoded ↔
      ∃ ref : Reference, ref.WellFormed ∧ ref.body = body ∧ decoded = ref.decoded := by
  constructor
  · intro decodes
    unfold decodeReference at decodes
    by_cases isLt : body = "lt".toList
    · rw [if_pos isLt] at decodes
      exact ⟨.predefined .lt, trivial, isLt.symm, (Option.some.inj decodes).symm⟩
    rw [if_neg isLt] at decodes
    by_cases isGt : body = "gt".toList
    · rw [if_pos isGt] at decodes
      exact ⟨.predefined .gt, trivial, isGt.symm, (Option.some.inj decodes).symm⟩
    rw [if_neg isGt] at decodes
    by_cases isAmp : body = "amp".toList
    · rw [if_pos isAmp] at decodes
      exact ⟨.predefined .amp, trivial, isAmp.symm, (Option.some.inj decodes).symm⟩
    rw [if_neg isAmp] at decodes
    by_cases isApos : body = "apos".toList
    · rw [if_pos isApos] at decodes
      exact ⟨.predefined .apos, trivial, isApos.symm, (Option.some.inj decodes).symm⟩
    rw [if_neg isApos] at decodes
    by_cases isQuot : body = "quot".toList
    · rw [if_pos isQuot] at decodes
      exact ⟨.predefined .quot, trivial, isQuot.symm, (Option.some.inj decodes).symm⟩
    rw [if_neg isQuot] at decodes
    split at decodes
    · rename_i digits
      obtain ⟨wellFormed, rfl⟩ :=
        (decodeCharacterReference_eq_some_iff lawful (.inr rfl)).mp decodes
      exact ⟨.hexadecimal digits, wellFormed, rfl, rfl⟩
    · rename_i digits _
      obtain ⟨wellFormed, rfl⟩ :=
        (decodeCharacterReference_eq_some_iff lawful (.inl rfl)).mp decodes
      exact ⟨.decimal digits, wellFormed, rfl, rfl⟩
    · contradiction
  · rintro ⟨ref, wellFormed, rfl, rfl⟩
    cases ref with
    | predefined entity => cases entity <;> rfl
    | hexadecimal digits =>
        exact (decodeCharacterReference_eq_some_iff lawful (.inr rfl)).mpr ⟨wellFormed, rfl⟩
    | decimal digits =>
        have decodes :=
          (decodeCharacterReference_eq_some_iff lawful (.inl rfl)).mpr ⟨wellFormed, rfl⟩
        obtain ⟨nonempty, every, -⟩ := wellFormed
        cases digits with
        | nil => contradiction
        | cons digit digits =>
            have notHexadecimal : digit ≠ 'x' := by
              rintro rfl
              have impossible := every 'x' List.mem_cons_self
              revert impossible
              decide
            rw [Reference.body, decodeReference_decimal notHexadecimal]
            exact decodes

/-- A reference has no bytes but those of entity names and digits. -/
theorem Reference.not_mem_body {ref : Reference} (wellFormed : ref.WellFormed) {byte : Char}
    (notDigit : digitValue 16 byte = none) (notNamed : byte ∉ "#xltgtampapsquot".toList) :
    byte ∉ ref.body := by
  have notDecimal : digitValue 10 byte = none := by
    unfold digitValue at notDigit ⊢
    split at notDigit
    · contradiction
    · rename_i notDecimal
      rw [if_neg notDecimal, if_neg (by simp), if_neg (by simp)]
  have digitsFree : ∀ {base : Nat} {digits : Text}, digitValue base byte = none →
      Reference.DigitsWellFormed base digits → byte ∉ digits := by
    rintro base digits notDigit ⟨-, every, -⟩ member
    have isDigit := every byte member
    rw [notDigit] at isDigit
    contradiction
  have notHash : byte ≠ '#' := fun same => notNamed (same ▸ by decide)
  have notX : byte ≠ 'x' := fun same => notNamed (same ▸ by decide)
  cases ref with
  | predefined entity =>
      have named : entity.name ⊆ "#xltgtampapsquot".toList := by
        cases entity <;> decide
      exact fun member => notNamed (named member)
  | decimal digits =>
      have free := digitsFree notDecimal wellFormed
      simpa [Reference.body, notHash] using free
  | hexadecimal digits =>
      have free := digitsFree notDigit wellFormed
      simpa [Reference.body, notHash, notX] using free

theorem parseReference_eq_some_iff (lawful : utf8Proc.Lawful) {input decoded rest : Text} :
    parseReference utf8Proc input = some (decoded, rest) ↔
      ∃ ref : Reference, ref.WellFormed ∧ input = ref.render ++ rest ∧
        decoded = ref.decoded := by
  constructor
  · intro parses
    unfold parseReference at parses
    split at parses
    · rename_i tail
      split at parses
      · contradiction
      · rename_i found next afterName
        obtain ⟨isSemicolon, body, bodyEq, -, eq⟩ := exists_of_dropWhile_ne afterName
        obtain ⟨decodedBody, decodes, returns⟩ := Option.bind_eq_some_iff.mp parses
        cases returns
        rw [bodyEq] at decodes
        obtain ⟨ref, wellFormed, rfl, rfl⟩ := (decodeReference_eq_some_iff lawful).mp decodes
        exact ⟨ref, wellFormed, by simp [Reference.render, eq], rfl⟩
    · contradiction
  · rintro ⟨ref, wellFormed, rfl, rfl⟩
    have free := Reference.not_mem_body wellFormed
      (by decide : digitValue 16 ';' = none) (by decide)
    have decodes := (decodeReference_eq_some_iff lawful).mpr ⟨ref, wellFormed, rfl, rfl⟩
    rw [Reference.render, List.cons_append, List.append_assoc, List.singleton_append,
      parseReference, dropWhile_ne_append free, takeWhile_ne_append free]
    simp only [decodes, Option.bind_eq_bind, Option.bind_some]

theorem Reference.render_ne_nil (ref : Reference) : ref.render ≠ [] := by
  simp [Reference.render]

end Httpfs.S3.Xml
