import Httpfs.S3.Xml.Completeness
import Httpfs.S3.Xml.Declaration

/-!
# Documents

The reader accepts the texts of XML characters that a well formed document
renders to, and the root it returns is the tree the document stands for.
-/

namespace Httpfs.S3.Xml

open Text

variable {utf8Proc : Utf8Proc}

/-! ## What precedes the root -/

/-- Neither a byte order mark nor a declaration. -/
def StartsBody (input : Text) : Prop :=
  (∀ byte ∈ input.head?, byte ≠ '\xef') ∧ ¬ "<?xml".toList <+: input

private theorem parseProlog_sound {input rest : Text} (parses : parseProlog input = some rest) :
    ∃ (bom : Bool) (declaration : Option DeclarationSyntax),
      (∀ item ∈ declaration, item.WellFormed) ∧
      input = (if bom then utf8Bom else []) ++ (declaration.map (·.render)).getD [] ++ rest := by
  have declared : ∀ {body : Text},
      (if "<?xml".toList.isPrefixOf body then parseXMLDeclaration body else some body) =
        some rest →
      ∃ declaration : Option DeclarationSyntax, (∀ item ∈ declaration, item.WellFormed) ∧
        body = (declaration.map (·.render)).getD [] ++ rest := by
    intro body parses
    split at parses
    · rename_i opens
      obtain ⟨declaration, wellFormed, rfl⟩ :=
        (parseXMLDeclaration_eq_some_iff (List.isPrefixOf_iff_prefix.mp opens)).mp parses
      refine ⟨some declaration, ?_, rfl⟩
      rintro item ⟨⟩
      exact wellFormed
    · cases parses
      exact ⟨none, by simp, rfl⟩
  unfold parseProlog at parses
  dsimp only at parses
  split at parses
  · rename_i hasBom
    obtain ⟨body, rfl⟩ := List.isPrefixOf_iff_prefix.mp hasBom
    rw [show (utf8Bom ++ body).drop 3 = body from rfl] at parses
    obtain ⟨declaration, wellFormed, rfl⟩ := declared parses
    exact ⟨true, declaration, wellFormed, by simp⟩
  · obtain ⟨declaration, wellFormed, rfl⟩ := declared parses
    exact ⟨false, declaration, wellFormed, by simp⟩

private theorem parseProlog_complete {bom : Bool} {declaration : Option DeclarationSyntax}
    (wellFormed : ∀ item ∈ declaration, item.WellFormed) {rest : Text} (starts : StartsBody rest) :
    parseProlog ((if bom then utf8Bom else []) ++ (declaration.map (·.render)).getD [] ++ rest) =
      some rest := by
  obtain ⟨noBom, noDeclaration⟩ := starts
  obtain ⟨body, bodyEq⟩ : ∃ body, (declaration.map (·.render)).getD [] ++ rest = body := ⟨_, rfl⟩
  have bodyNoBom : ¬ utf8Bom.isPrefixOf body = true := by
    intro hasBom
    obtain ⟨after, eq⟩ := List.isPrefixOf_iff_prefix.mp hasBom
    cases declaration with
    | none =>
        have restEq : rest = body := bodyEq
        rw [restEq, ← eq] at noBom
        exact noBom '\xef' rfl rfl
    | some declaration =>
        rw [← eq] at bodyEq
        have impossible := (List.cons.inj bodyEq).1
        revert impossible
        decide
  have declared : (if "<?xml".toList.isPrefixOf body then parseXMLDeclaration body
      else some body) = some rest := by
    cases declaration with
    | none =>
        have restEq : rest = body := bodyEq
        subst restEq
        rw [if_neg]
        exact fun opens => noDeclaration (List.isPrefixOf_iff_prefix.mp opens)
    | some declaration =>
        have opens : "<?xml".toList <+: body := by
          refine ⟨declaration.items.flatMap DeclarationItem.render ++ declaration.trailing ++
            "?>".toList ++ rest, ?_⟩
          rw [← bodyEq]
          simp [DeclarationSyntax.render_eq]
        rw [if_pos (List.isPrefixOf_iff_prefix.mpr opens)]
        exact (parseXMLDeclaration_eq_some_iff opens).mpr
          ⟨declaration, wellFormed declaration rfl, bodyEq.symm⟩
  rw [List.append_assoc, bodyEq]
  unfold parseProlog
  dsimp only
  cases bom with
  | true =>
      rw [if_pos rfl, if_pos (List.isPrefixOf_iff_prefix.mpr (List.prefix_append _ _))]
      exact declared
  | false =>
      have same : (if false = true then utf8Bom else []) ++ body = body := rfl
      rw [same, if_neg bodyNoBom]
      exact declared

private theorem startsBody_root (syntaxTree : RootSyntax)
    (wellFormed : syntaxTree.content.WellFormed) (rest : Text) :
    StartsBody (syntaxTree.content.render ++ rest) := by
  obtain ⟨tag, after, tagWellFormed, eq⟩ : ∃ tag after, TagSyntax.WellFormed tag ∧
      syntaxTree.content.render ++ rest = '<' :: (tag.render ++ after) := by
    cases syntaxTree with
    | empty tag => exact ⟨tag, _, wellFormed.1, by simp [RootSyntax.content]; rfl⟩
    | element tag inner closing =>
        exact ⟨tag, _, wellFormed.1, by simp [RootSyntax.content]; rfl⟩
  obtain ⟨first, tail, renderEq, start⟩ := tag.exists_first tagWellFormed
  rw [eq, renderEq]
  constructor
  · rintro byte ⟨⟩
    decide
  · intro opens
    obtain ⟨-, opens⟩ := List.cons_prefix_cons.mp opens
    obtain ⟨same, -⟩ := List.cons_prefix_cons.mp opens
    subst same
    exact absurd start (by decide)

private theorem startsBody_misc {miscs : List Misc} (misc : Document.MiscWellFormed miscs)
    {rest : Text} (starts : StartsBody rest) :
    StartsBody ((miscContent miscs).render ++ rest) := by
  cases miscs with
  | nil => exact starts
  | cons first miscs =>
      cases first with
      | blank value =>
          have isBlank := misc.blanks value List.mem_cons_self
          constructor
          · rintro byte ⟨⟩ rfl
            exact absurd isBlank (by decide)
          · intro opens
            obtain ⟨same, -⟩ := List.cons_prefix_cons.mp opens
            subst same
            exact absurd isBlank (by decide)
      | comment remark =>
          rw [render_miscComment]
          constructor
          · rintro byte ⟨⟩
            decide
          · intro opens
            obtain ⟨-, opens⟩ := List.cons_prefix_cons.mp opens
            obtain ⟨impossible, -⟩ := List.cons_prefix_cons.mp opens
            revert impossible
            decide

/-! ## The documents of the reader -/

private theorem consistent_start (input : Text) : Consistent { input } :=
  ⟨fun inside => absurd rfl inside, fun closed => absurd closed Bool.false_ne_true⟩

/-- The reader accepts exactly the well formed documents, each with its tree. -/
theorem parseDocument_eq_some_iff (lawful : utf8Proc.Lawful) {input : Text} {node : S3XMLNode} :
    parseDocument utf8Proc input = some node ↔
      XmlText input ∧ ∃ document : Document, document.WellFormed ∧ input = document.render ∧
        document.Denotes node := by
  unfold parseDocument
  constructor
  · intro parses
    split at parses
    · contradiction
    rename_i valid
    rw [Bool.not_eq_true, Bool.not_eq_false', validateCharacters_iff lawful] at valid
    obtain ⟨body, prolog, continues⟩ := Option.bind_eq_some_iff.mp parses
    obtain ⟨last, parsesMarkups, returns⟩ := Option.bind_eq_some_iff.mp continues
    split at returns
    · contradiction
    rename_i complete
    cases returns
    simp only [Bool.or_eq_true, Bool.not_eq_true', not_or, Bool.not_eq_false,
      List.isEmpty_iff] at complete
    obtain ⟨⟨-, rootClosed⟩, outside⟩ := complete
    obtain ⟨bom, declaration, declared, rfl⟩ := parseProlog_sound prolog
    have completes := Completes.of_parseMarkups lawful parsesMarkups outside rootClosed
    generalize last.root = root at completes
    cases completes with
    | closed _ closed => contradiction
    | inside isInside => exact absurd rfl isInside
    | @before _ miscs _ _ _ _ misc inputEq ahead =>
        obtain ⟨syntaxTree, _, wellFormed, depthBound, denotes, ⟨after, afterMisc, rfl⟩, rfl⟩ :=
          ahead.exists_root
        have bodyEq : body = (miscContent miscs).render ++
            (syntaxTree.content.render ++ (miscContent after).render) := inputEq
        refine ⟨valid, ⟨bom, declaration, miscs, syntaxTree, after⟩,
          ⟨declared, misc, wellFormed, depthBound, afterMisc⟩, ?_, denotes⟩
        rw [bodyEq]
        simp only [Document.render, Document.prolog, List.append_assoc]
  · rintro ⟨valid, document, wellFormed, rfl, denotes⟩
    rw [if_neg (by simpa using (validateCharacters_iff lawful _).mpr valid)]
    obtain ⟨declared, misc, rootWellFormed, depthBound, afterMisc⟩ := wellFormed
    have starts := startsBody_misc misc
      (startsBody_root document.root rootWellFormed (miscContent document.after).render)
    have prolog := @parseProlog_complete document.bom _ declared _ starts
    have ahead : RootAhead IsMisc rootScope
        (document.root.content.render ++ (miscContent document.after).render) node :=
      ⟨⟨document.root, _, rootWellFormed, depthBound, denotes, ⟨_, afterMisc, rfl⟩, rfl⟩⟩
    have completes : Completes IsMisc { input := (miscContent document.before).render ++
        (document.root.content.render ++ (miscContent document.after).render) } node :=
      .before rfl rfl rfl misc rfl ahead
    obtain ⟨last, parses, outside, seen, rootClosed, rootEq⟩ :=
      completes.parseMarkups lawful (consistent_start _) (Nat.lt_succ_self _)
    have split : document.render = (if document.bom then utf8Bom else []) ++
        (document.declaration.map (·.render)).getD [] ++
          ((miscContent document.before).render ++
            (document.root.content.render ++ (miscContent document.after).render)) := by
      simp only [Document.render, Document.prolog, List.append_assoc]
    rw [split, prolog]
    simp only [Option.bind_eq_bind, Option.bind_some]
    rw [parses]
    simp [outside, seen, rootClosed, rootEq]

/-! ## Truncated documents -/

/-- The document up to the end of its root. -/
def Document.upToRoot (document : Document) : Text :=
  document.prolog ++ (miscContent document.before).render ++ document.root.content.render

private theorem parseProlog_document {document : Document} (wellFormed : document.WellFormed)
    (rest : Text) :
    parseProlog (document.upToRoot ++ rest) =
      some ((miscContent document.before).render ++ (document.root.content.render ++ rest)) := by
  have starts := startsBody_misc wellFormed.before
    (startsBody_root document.root wellFormed.root rest)
  have prolog := @parseProlog_complete document.bom _ wellFormed.declaration _ starts
  simpa only [Document.upToRoot, Document.prolog, List.append_assoc] using prolog

/-- Where the root of a document ends does not depend on what follows it. -/
private theorem untilClosed_document (lawful : utf8Proc.Lawful) {document : Document}
    (wellFormed : document.WellFormed) {node : S3XMLNode} (denotes : document.Denotes node)
    {rest body : Text} (prolog : parseProlog (document.upToRoot ++ rest) = some body) {fuel : Nat}
    (enough : body.length < fuel) :
    ∃ last, untilClosed utf8Proc fuel { input := body } = some last ∧ last.input = rest := by
  rw [parseProlog_document wellFormed] at prolog
  cases prolog
  have ahead : RootAhead (· = rest) rootScope (document.root.content.render ++ rest) node :=
    ⟨⟨document.root, rest, wellFormed.root, wellFormed.depth, denotes, rfl, rfl⟩⟩
  have completes : Completes (· = rest) { input := (miscContent document.before).render ++
      (document.root.content.render ++ rest) } node :=
    .before rfl rfl rfl wellFormed.before rfl ahead
  exact completes.untilClosed lawful (consistent_start _) enough

/-- A document cut off before the end of its root is not accepted. -/
theorem parseDocument_truncated (lawful : utf8Proc.Lawful) {document : Document}
    (wellFormed : document.WellFormed) {node : S3XMLNode} (denotes : document.Denotes node)
    {front : Text} (isPrefix : front <+: document.render)
    (short : front.length < document.upToRoot.length) : parseDocument utf8Proc front = none := by
  cases parses : parseDocument utf8Proc front with
  | none => rfl
  | some other =>
      exfalso
      obtain ⟨-, shorter, shorterWellFormed, rfl, shorterDenotes⟩ :=
        (parseDocument_eq_some_iff lawful).mp parses
      obtain ⟨cut, whole⟩ := isPrefix
      have prolog := parseProlog_document wellFormed (miscContent document.after).render
      have same : document.upToRoot ++ (miscContent document.after).render =
          shorter.upToRoot ++ ((miscContent shorter.after).render ++ cut) := by
        rw [← List.append_assoc]
        exact whole.symm
      have shorterProlog := prolog
      rw [same] at shorterProlog
      obtain ⟨last, closes, lastInput⟩ :=
        untilClosed_document lawful wellFormed denotes prolog (Nat.lt_succ_self _)
      obtain ⟨shorterLast, shorterCloses, shorterInput⟩ :=
        untilClosed_document lawful shorterWellFormed shorterDenotes shorterProlog
          (Nat.lt_succ_self _)
      -- Both runs are the same, so they leave the same.
      rw [closes] at shorterCloses
      cases shorterCloses
      rw [lastInput] at shorterInput
      rw [shorterInput] at same
      have upToRoot := List.append_cancel_right same
      have rendered : shorter.render = shorter.upToRoot ++ (miscContent shorter.after).render :=
        rfl
      rw [rendered, List.length_append, ← upToRoot] at short
      omega

end Httpfs.S3.Xml
