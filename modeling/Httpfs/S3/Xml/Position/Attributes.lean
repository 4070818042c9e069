import Httpfs.S3.Xml.Position.Scanning

/-!
# Loops over attributes

An iteration over the attributes of the declaration or of a tag either ends the loop or
goes on at a later position, so that the loop comes to its end.
-/

namespace Httpfs.S3.Xml.Position

open Text Cursor

variable {utf8Proc : Utf8Proc} {input : Text} {fuel : Nat}

/-- Iterations that correspond: both go on, further in the text, or both are done. -/
def Proceeds {β δ : Type} (input : Text) (least : Nat) (Done : β → δ → Prop) :
    Iteration AttributesState β → Iteration (List S3XMLAttribute × Text) δ → Prop
  | .again state, .again specified =>
      state.attributes = specified.1 ∧ least ≤ state.position ∧
        Stands input state.position specified.2
  | .done result, .done specified => Done result specified
  | _, _ => False

/-- How a loop goes on after an iteration. -/
def resume {δ : Type} (loop : Text → List S3XMLAttribute → Option δ) :
    Iteration (List S3XMLAttribute × Text) δ → Option δ
  | .again specified => loop specified.2 specified.1
  | .done result => some result

/-- A loop refines a parser whose unfolding is refined by its iterations. -/
theorem iterate_refines {β δ : Type} {Done : β → δ → Prop}
    {body : AttributesState → Except Stop (Iteration AttributesState β)}
    {iteration : Text → List S3XMLAttribute → Option (Iteration (List S3XMLAttribute × Text) δ)}
    {loop : Nat → Text → List S3XMLAttribute → Option δ}
    (unfolds : ∀ fuel rest attributes, loop (fuel + 1) rest attributes =
      (iteration rest attributes).bind (resume (loop fuel)))
    {least : Nat}
    (bodyRefines : ∀ state rest, Stands input state.position rest → least ≤ state.position →
      Refines (Proceeds input (state.position + 1) Done) (body state)
        (iteration rest state.attributes))
    {loopFuel specifiedFuel : Nat} {state : AttributesState} {rest : Text}
    (stands : Stands input state.position rest) (within : least ≤ state.position)
    (loopEnough : rest.length < loopFuel)
    (specifiedEnough : rest.length < specifiedFuel) :
    Refines Done (iterate body loopFuel state) (loop specifiedFuel rest state.attributes) := by
  induction loopFuel generalizing specifiedFuel state rest with
  | zero => contradiction
  | succ loopFuel inductionHypothesis =>
      obtain ⟨specifiedFuel, rfl⟩ :=
        Nat.exists_eq_add_one_of_ne_zero (Nat.ne_zero_of_lt specifiedEnough)
      rw [iterate, unfolds]
      apply (bodyRefines state rest stands within).bind
      intro iterated specified proceeds
      cases iterated with
      | again next =>
          cases specified with
          | done result => exact proceeds.elim
          | again specified =>
              obtain ⟨attributes, left⟩ := specified
              obtain ⟨sameAttributes, advances, standsNext⟩ := proceeds
              dsimp only at sameAttributes standsNext ⊢
              have length := stands.length_eq
              have lengthNext := standsNext.length_eq
              have shorter : left.length < rest.length := by omega
              rw [← sameAttributes]
              exact inductionHypothesis standsNext (by omega)
                (Nat.lt_of_lt_of_le shorter (Nat.le_of_lt_succ loopEnough))
                (Nat.lt_of_lt_of_le shorter (Nat.le_of_lt_succ specifiedEnough))
      | done result =>
          cases specified with
          | again specified => exact proceeds.elim
          | done specified => exact refines_ok proceeds

/-! ## The declaration -/

/-- An iteration over the attributes of the declaration, by what is left. -/
def declarationIteration (rest : Text) (attributes : List S3XMLAttribute) :
    Option (Iteration (List S3XMLAttribute × Text) (List S3XMLAttribute × Text)) :=
  let rest := Xml.skipWhitespace rest
  if "?>".toList.isPrefixOf rest then some (.done (attributes, rest.drop 2))
  else do
    let (name, rest) ← Xml.parseQualifiedName rest
    if !name.namePrefix.isEmpty then none
    let rest ← Xml.parseEquals rest
    let (value, rest) ← Xml.parseDeclarationValue rest
    if !"?>".toList.isPrefixOf rest && !(rest.head?.any isXMLWhitespace) then none
    some (.again (attributes ++ [⟨name, value⟩], rest))

theorem declarationAttributes_succ (fuel : Nat) (rest : Text) (attributes : List S3XMLAttribute) :
    declarationAttributes (fuel + 1) rest attributes =
      (declarationIteration rest attributes).bind (resume (declarationAttributes fuel)) := by
  rw [declarationAttributes, declarationIteration]
  split
  · rfl
  · simp only [Option.bind_eq_bind, Option.bind_assoc]
    congr 1
    funext named
    split
    · rfl
    · rw [Option.bind_assoc]
      congr 1
      funext rest
      rw [Option.bind_assoc]
      congr 1
      funext valued
      split <;> rfl

section Declaration

variable (enough : input.length < fuel)
include enough

theorem declarationAttribute_refines {least : Nat} (state : AttributesState) (rest : Text)
    (stands : Stands input state.position rest) (within : least ≤ state.position) :
    Refines (Proceeds input (state.position + 1) (Reads input least))
      (declarationAttribute input fuel state) (declarationIteration rest state.attributes) := by
  obtain ⟨position, skips, advances, standsAfter⟩ := skipWhitespace_eq enough stands
  rw [declarationAttribute, declarationIteration, skips]
  generalize Xml.skipWhitespace rest = left at standsAfter
  change Refines _ (hasPrefixAt input "?>".toList position >>= _) _
  rw [standsAfter.hasPrefixAt_eq]
  change Refines _ (if "?>".toList.isPrefixOf left = true then _ else _) _
  by_cases closes : "?>".toList.isPrefixOf left = true
  · rw [if_pos closes, if_pos closes]
    obtain ⟨after, rfl⟩ := List.isPrefixOf_iff_prefix.mp closes
    have standsEnd : Stands input (position + 2) after := standsAfter.append
    have dropped : ("?>".toList ++ after).drop 2 = after := rfl
    rw [standsEnd.moved_eq, dropped]
    exact refines_ok ⟨rfl, by dsimp only; omega, standsEnd⟩
  · rw [if_neg closes, if_neg closes]
    apply (parseQualifiedName_refines enough standsAfter).bind
    rintro ⟨name, next⟩ ⟨_, afterName⟩ ⟨rfl, advancesName, standsName⟩
    dsimp only at advancesName standsName ⊢
    apply Refines.require
    · intro prefixed
      rw [prefixed]
      rfl
    · intro unprefixed
      rw [unprefixed]
      apply (parseEquals_refines enough standsName).bind
      rintro valueStart afterEquals ⟨advancesEquals, standsEquals⟩
      apply (parseDeclarationValue_refines enough standsEquals).bind
      rintro ⟨value, last⟩ ⟨_, afterValue⟩ ⟨rfl, advancesValue, standsValue⟩
      dsimp only at advancesValue standsValue ⊢
      rw [standsValue.hasPrefixAt_eq]
      change Refines _ (isAt input last isXMLWhitespace >>= _) _
      rw [standsValue.isAt_eq]
      apply Refines.require
      · intro refused
        rw [Bool.or_eq_false_iff] at refused
        rw [refused.1, refused.2]
        rfl
      · intro accepted
        have goesOn : ¬ (!"?>".toList.isPrefixOf afterValue &&
            !(afterValue.head?.any isXMLWhitespace)) = true := by
          rw [← Bool.not_or, accepted]
          exact Bool.false_ne_true
        rw [if_neg goesOn]
        exact refines_ok ⟨rfl, by dsimp only; omega, standsValue⟩

theorem parseXMLDeclaration_refines {position : Nat} {rest : Text}
    (stands : Stands input position rest) (opens : "<?xml".toList.isPrefixOf rest = true) :
    Refines (fun next left => position ≤ next ∧ Stands input next left)
      (parseXMLDeclaration input fuel position)
      (Xml.parseXMLDeclaration rest) := by
  obtain ⟨after, rfl⟩ := List.isPrefixOf_iff_prefix.mp opens
  have standsAfter := stands.append
  rw [parseXMLDeclaration, Xml.parseXMLDeclaration, standsAfter.moved_eq, List.drop_left]
  change Refines _ (isAt input _ isXMLWhitespace >>= _) _
  rw [standsAfter.isAt_eq]
  apply Refines.require
  · intro noBlank
    rw [noBlank]
    rfl
  · intro blank
    rw [blank]
    have loop := @iterate_refines input _ _ _ _ _ _ declarationAttributes_succ position
      (declarationAttribute_refines enough) fuel (after.length + 1)
      { position := position + "<?xml".toList.length } after standsAfter (Nat.le_add_right _ _)
      (rest_lt enough standsAfter) (Nat.lt_succ_self _)
    apply loop.bind
    rintro ⟨attributes, last⟩ ⟨_, left⟩ ⟨rfl, advances, standsLast⟩
    dsimp only at advances standsLast ⊢
    cases declarationIsValid attributes with
    | false => exact refines_reject
    | true => exact refines_ok ⟨advances, standsLast⟩

end Declaration

/-! ## Start tags -/

variable (utf8Proc) in
/-- The end of an iteration over the attributes of a tag, by what is left. -/
def spaceIteration (rest : Text) (attributes : List S3XMLAttribute) :
    Option (Iteration (List S3XMLAttribute × Text) (List S3XMLAttribute × Bool × Text)) :=
  match rest with
  | [] => some (.again (attributes, rest))
  | next :: _ =>
      if next = '>' ∨ next = '/' then some (.again (attributes, rest))
      else do
        let (name, rest) ← Xml.parseQualifiedName rest
        if attributes.any (·.name == name) then none
        let rest ← Xml.parseEquals rest
        let (value, rest) ← Xml.parseAttributeValue utf8Proc rest
        some (.again (attributes ++ [⟨name, value⟩], rest))

variable (utf8Proc) in
/-- An iteration over the attributes of a tag, by what is left. -/
def tagIteration (rest : Text) (attributes : List S3XMLAttribute) :
    Option (Iteration (List S3XMLAttribute × Text) (List S3XMLAttribute × Bool × Text)) :=
  match rest with
  | [] => none
  | current :: after =>
      if current = '>' then some (.done (attributes, false, after))
      else if current = '/' ∧ after.head? = some '>' then some (.done (attributes, true, after.drop 1))
      else if !isXMLWhitespace current then none
      else spaceIteration utf8Proc (Xml.skipWhitespace rest) attributes

theorem tagAttributes_succ (fuel : Nat) (rest : Text) (attributes : List S3XMLAttribute) :
    tagAttributes utf8Proc (fuel + 1) rest attributes =
      (tagIteration utf8Proc rest attributes).bind (resume (tagAttributes utf8Proc fuel)) := by
  rw [tagAttributes.eq_def]
  dsimp only
  split
  · rfl
  · rfl
  · rename_i notEnd
    rw [tagIteration, if_neg notEnd]
    split
    · rfl
    · split
      · rfl
      · rw [spaceIteration.eq_def]
        split
        · rename_i atEnd
          rw [atEnd]
          rfl
        · rename_i continues
          rw [continues]
          dsimp only
          split
          · rfl
          · simp only [Option.bind_eq_bind, Option.bind_assoc]
            congr 1
            funext named
            split
            · rfl
            · rw [Option.bind_assoc]
              congr 1
              funext rest
              rw [Option.bind_assoc]
              rfl

/-- The attributes of a tag, whether it closes its element, and what is left. -/
structure ReadsTag (input : Text) (least : Nat) (result : List S3XMLAttribute × Bool × Nat)
    (parsed : List S3XMLAttribute × Bool × Text) : Prop where
  attributes : result.1 = parsed.1
  selfClosing : result.2.1 = parsed.2.1
  advances : least ≤ result.2.2
  stands : Stands input result.2.2 parsed.2.2

section Tags

variable (enough : input.length < fuel)
include enough

theorem attributeAfterSpace_refines {least start : Nat} (state : AttributesState) (rest : Text)
    (stands : Stands input state.position rest) (advances : least ≤ state.position) :
    Refines (Proceeds input least (ReadsTag input start))
      (attributeAfterSpace utf8Proc input fuel state)
      (spaceIteration utf8Proc rest state.attributes) := by
  rw [attributeAfterSpace, spaceIteration.eq_def]
  rw [stands.isAt_eq]
  cases rest with
  | nil => exact refines_ok ⟨rfl, advances, stands⟩
  | cons next after =>
      change Refines _ (if (!(next == '>' || next == '/')) = true then _ else _)
        (if next = '>' ∨ next = '/' then _ else _)
      by_cases ends : next = '>' ∨ next = '/'
      · have noAttribute : ¬ (!(next == '>' || next == '/')) = true := by
          rcases ends with rfl | rfl <;> exact Bool.false_ne_true
        rw [if_pos ends, if_neg noAttribute]
        exact refines_ok ⟨rfl, advances, stands⟩
      · have someAttribute : (!(next == '>' || next == '/')) = true := by
          simpa using ends
        rw [if_neg ends, if_pos someAttribute]
        apply (parseQualifiedName_refines enough stands).bind
        rintro ⟨name, afterName⟩ ⟨_, restName⟩ ⟨rfl, advancesName, standsName⟩
        dsimp only at advancesName standsName ⊢
        apply Refines.require
        · intro repeated
          rw [Bool.not_eq_false'] at repeated
          rw [if_pos repeated]
          rfl
        · intro fresh
          have notRepeated : ¬ (state.attributes.any (·.name == name)) = true := by
            rw [Bool.not_eq_true'] at fresh
            rw [fresh]
            exact Bool.false_ne_true
          rw [if_neg notRepeated]
          apply (parseEquals_refines enough standsName).bind
          rintro valueStart restEquals ⟨advancesEquals, standsEquals⟩
          apply (parseAttributeValue_refines enough standsEquals).bind
          rintro ⟨value, last⟩ ⟨_, restValue⟩ ⟨rfl, advancesValue, standsValue⟩
          exact refines_ok ⟨rfl, by dsimp only at advancesValue ⊢; omega, standsValue⟩

theorem tagAttribute_refines {least : Nat} (state : AttributesState) (rest : Text)
    (stands : Stands input state.position rest) (within : least ≤ state.position) :
    Refines (Proceeds input (state.position + 1) (ReadsTag input least))
      (tagAttribute utf8Proc input fuel state) (tagIteration utf8Proc rest state.attributes) := by
  rw [tagAttribute]
  apply Refines.require
  · intro atEnd
    have noRest : rest = [] := by
      by_contra someRest
      exact absurd (decide_eq_true (stands.lt_iff.mpr someRest)) (by rw [atEnd]; exact nofun)
    rw [noRest]
    rfl
  · intro inside
    cases rest with
    | nil => exact absurd rfl (stands.lt_iff.mp (of_decide_eq_true inside))
    | cons current after =>
        rw [stands.charAt_eq]
        change Refines _ (if current = '>' then _ else _) _
        rw [tagIteration]
        by_cases ends : current = '>'
        · rw [if_pos ends, if_pos ends, stands.tail.moved_eq]
          exact refines_ok ⟨rfl, rfl, Nat.le_succ_of_le within, stands.tail⟩
        · rw [if_neg ends, if_neg ends]
          change Refines _ (isAt input (state.position + 1) (· == '>') >>= _) _
          rw [stands.tail.isAt_eq]
          change Refines _
            (if (current == '/' && after.head?.any (· == '>')) = true then _ else _) _
          by_cases closes : current = '/' ∧ after.head? = some '>'
          · obtain ⟨isSlash, isEnd⟩ := closes
            obtain ⟨last, rfl⟩ := List.head?_eq_some_iff.mp isEnd
            have both : (current == '/' && ('>' :: last).head?.any (· == '>')) = true := by
              simp [isSlash]
            rw [if_pos both, if_pos ⟨isSlash, isEnd⟩, stands.tail.tail.moved_eq]
            exact refines_ok ⟨rfl, rfl, (Nat.le_add_right_of_le within : least ≤ state.position + 2), stands.tail.tail⟩
          · have notBoth : ¬ (current == '/' && after.head?.any (· == '>')) = true := by
              intro both
              rw [Bool.and_eq_true] at both
              refine closes ⟨eq_of_beq both.1, ?_⟩
              cases after with
              | nil => cases both.2
              | cons next last => exact congrArg some (eq_of_beq both.2)
            rw [if_neg notBoth, if_neg closes]
            apply Refines.require
            · intro notBlank
              rw [notBlank]
              rfl
            · intro blank
              obtain ⟨skips, standsSpace⟩ :=
                stands.skipWhile_eq isXMLWhitespace (rest_lt enough stands)
              have positive : 0 < ((current :: after).takeWhile isXMLWhitespace).length := by
                rw [List.takeWhile_cons_of_pos blank]
                exact Nat.zero_lt_succ _
              have advances := Nat.add_le_add_left (Nat.succ_le_of_lt positive) state.position
              rw [blank, skipWhitespace, skips]
              exact attributeAfterSpace_refines enough _ _ standsSpace advances

end Tags

end Httpfs.S3.Xml.Position
