import Httpfs.Http.HuggingFace.Listing

/-!
# Link headers with several links

A `Link` header is a list of links, each a target in angle brackets and parameters
with quoted values.  The parser cuts it at all commas and semicolons, also those of
targets and values.
-/

namespace Httpfs.Http.HuggingFace

open Text

/-! ## Grammar -/

/-- Blanks that may stand between the parts of a header. -/
def Blank (text : Text) : Prop :=
  ∀ byte ∈ text, byte = ' ' ∨ byte = '\t'

/-- `;name="value"`, with blanks around the semicolon. -/
structure LinkParam where
  before : Text
  after : Text
  name : Text
  value : Text
  blankBefore : Blank before
  blankAfter : Blank after
  plainName : ∀ byte ∈ name, isSpace byte = false ∧ byte ∉ [';', ',', '"', '=', '<', '>']
  quoted : '"' ∉ value

def LinkParam.text (param : LinkParam) : Text :=
  param.before ++ ';' :: (param.after ++ (param.name ++ '=' :: '"' :: (param.value ++ ['"'])))

/-- `<uri>` with parameters, and blanks around it. -/
structure LinkValue where
  before : Text
  uri : Text
  params : List LinkParam
  after : Text
  blankBefore : Blank before
  blankAfter : Blank after
  uriBytes : ∀ byte ∈ uri, byte ∉ ['<', '>', '"']
  parametrized : params ≠ []

namespace LinkValue

def paramsText (link : LinkValue) : Text :=
  link.params.flatMap LinkParam.text ++ link.after

def text (link : LinkValue) : Text :=
  link.before ++ '<' :: (link.uri ++ '>' :: link.paramsText)

/-- The first `rel` of a link. -/
def rel? (link : LinkValue) : Option Text :=
  (link.params.find? fun param => param.name = "rel".toList).map LinkParam.value

end LinkValue

/-- The header of some links. -/
def linkHeader : List LinkValue → Text
  | [] => []
  | [link] => link.text
  | link :: next :: rest => link.text ++ ',' :: linkHeader (next :: rest)

/-- The target of the first link to a next page, empty if there is none. -/
def nextPageOf (links : List LinkValue) : Text :=
  ((links.find? fun link => link.rel? = some "next".toList).map LinkValue.uri).getD []

/-- What the parser looks for. -/
def relNext : Text :=
  "rel=\"next\"".toList

/-! ## Cutting -/

/-- The first of some bytes in a text of two parts is in one of them. -/
theorem cut_cases {front back first second : Text} {byte : Char}
    (cut : front ++ back = first ++ byte :: second) :
    (∃ rest, front = first ++ byte :: rest ∧ second = rest ++ back) ∨
      ∃ rest, first = front ++ rest ∧ back = rest ++ byte :: second := by
  rcases List.append_eq_append_iff.mp cut with ⟨middle, firstEq, backEq⟩ |
    ⟨middle, frontEq, secondEq⟩
  · exact .inr ⟨middle, firstEq, backEq⟩
  · cases middle with
    | nil =>
        right
        refine ⟨[], ?_, secondEq.symm⟩
        rw [frontEq, List.append_nil, List.append_nil]
    | cons other middle =>
        obtain ⟨rfl, rest⟩ := List.cons.inj secondEq
        exact .inl ⟨middle, frontEq, rest⟩

theorem lines_append_cons_eq (separator : Char) (front back : Text) :
    lines separator (front ++ separator :: back) =
      front.splitOn separator ++ lines separator back := by
  have pieces := List.splitOn_ne_nil separator back
  rw [lines, lines, List.splitOn_append_cons_self, List.getLast?_append_of_ne_nil _ pieces]
  split
  · rw [List.dropLast_append_of_ne_nil pieces]
  · rfl

/-- A piece between separators is one of the pieces. -/
theorem mem_splitOn {separator : Char} {front piece back : Text} (free : separator ∉ piece)
    (starts : front = [] ∨ ∃ before, front = before ++ [separator])
    (ends : back = [] ∨ ∃ after, back = separator :: after) :
    piece ∈ (front ++ (piece ++ back)).splitOn separator := by
  have fromHere : piece ∈ (piece ++ back).splitOn separator := by
    rcases ends with rfl | ⟨after, rfl⟩
    · rw [List.append_nil, List.splitOn_eq_singleton free]
      exact List.mem_cons_self
    · rw [List.splitOn_append_cons_self_of_not_mem free]
      exact List.mem_cons_self
  rcases starts with rfl | ⟨before, rfl⟩
  · exact fromHere
  · rw [List.append_assoc, List.singleton_append, List.splitOn_append_cons_self]
    exact List.mem_append_right _ fromHere

/-- The piece around a position. -/
theorem exists_piece_around (separator : Char) (front back : Text) :
    ∃ near, near <:+ front ∧
      near ++ back.takeWhile (· ≠ separator) ∈ (front ++ back).splitOn separator := by
  have behind : ∀ text : Text, ∃ rest, text = text.takeWhile (· ≠ separator) ++ rest ∧
      separator ∉ text.takeWhile (· ≠ separator) ∧
      (rest = [] ∨ ∃ after, rest = separator :: after) := by
    intro text
    refine ⟨text.dropWhile (· ≠ separator), List.takeWhile_append_dropWhile.symm, ?_, ?_⟩
    · intro member
      simpa using List.mem_takeWhile_imp member
    · cases rest : text.dropWhile (· ≠ separator) with
      | nil => exact .inl rfl
      | cons byte after =>
          obtain ⟨rfl, -⟩ := exists_of_dropWhile_ne rest
          exact .inr ⟨after, rfl⟩
  obtain ⟨before, reversedEq, nearFree, starts⟩ := behind front.reverse
  obtain ⟨after, backEq, free, ends⟩ := behind back
  have frontEq := congrArg List.reverse reversedEq
  rw [List.reverse_reverse, List.reverse_append] at frontEq
  refine ⟨(front.reverse.takeWhile (· ≠ separator)).reverse, ⟨before.reverse, frontEq.symm⟩, ?_⟩
  have whole : front ++ back = before.reverse ++
      (((front.reverse.takeWhile (· ≠ separator)).reverse ++
        back.takeWhile (· ≠ separator)) ++ after) := by
    conv_lhs => rw [frontEq, backEq]
    simp only [List.append_assoc]
  rw [whole]
  apply mem_splitOn _ _ ends
  · rw [List.mem_append, List.mem_reverse]
    exact not_or.mpr ⟨nearFree, free⟩
  · rcases starts with rfl | ⟨rest, rfl⟩
    · exact .inl rfl
    · exact .inr ⟨rest.reverse, List.reverse_cons⟩

/-- Every piece stands between separators. -/
theorem exists_of_mem_splitOn {separator : Char} {text piece : Text}
    (isPiece : piece ∈ text.splitOn separator) :
    ∃ front back, text = front ++ (piece ++ back) ∧ separator ∉ piece ∧
      (front = [] ∨ ∃ before, front = before ++ [separator]) ∧
      (back = [] ∨ ∃ after, back = separator :: after) := by
  induction length : text.length using Nat.strong_induction_on generalizing text with
  | _ size inductionHypothesis =>
      by_cases separated : separator ∈ text
      · rcases List.eq_append_cons_of_mem separated with ⟨first, rest, rfl, free⟩
        rw [List.splitOn_append_cons_self_of_not_mem free] at isPiece
        rcases List.mem_cons.mp isPiece with rfl | later
        · exact ⟨[], separator :: rest, rfl, free, .inl rfl, .inr ⟨rest, rfl⟩⟩
        · have shorter : rest.length < size := by
            rw [← length, List.length_append, List.length_cons]
            omega
          rcases inductionHypothesis _ shorter later rfl with
            ⟨front, back, rfl, pieceFree, starts, ends⟩
          refine ⟨first ++ separator :: front, back, ?_, pieceFree, .inr ?_, ends⟩
          · rw [List.append_assoc, List.cons_append]
          · rcases starts with rfl | ⟨before, rfl⟩
            · exact ⟨first, rfl⟩
            · exact ⟨first ++ separator :: before, by
                rw [List.append_assoc, List.cons_append]⟩
      · rw [List.splitOn_eq_singleton separated, List.mem_singleton] at isPiece
        exact ⟨[], [], by rw [isPiece, List.append_nil, List.nil_append], isPiece ▸ separated,
          .inl rfl, .inl rfl⟩

/-- Behind a last byte that is no separator `getline` has nothing to leave out. -/
theorem lines_append_singleton {separator byte : Char} (other : byte ≠ separator) (front : Text) :
    lines separator (front ++ [byte]) = (front ++ [byte]).splitOn separator := by
  induction length : front.length using Nat.strong_induction_on generalizing front with
  | _ size inductionHypothesis =>
      by_cases separated : separator ∈ front
      · rcases List.eq_append_cons_of_mem separated with ⟨first, rest, rfl, free⟩
        have shorter : rest.length < size := by
          rw [← length, List.length_append, List.length_cons]
          omega
        rw [List.append_assoc, List.cons_append, lines_append_cons free,
          List.splitOn_append_cons_self_of_not_mem free, inductionHypothesis _ shorter rest rfl]
      · have free : separator ∉ front ++ [byte] := by
          rw [List.mem_append, List.mem_singleton]
          exact not_or.mpr ⟨separated, other.symm⟩
        rw [lines_of_not_mem (List.append_ne_nil_of_right_ne_nil _ (List.cons_ne_nil _ _)) free,
          List.splitOn_eq_singleton free]

/-- The cut of a text in two parts. -/
theorem exists_of_lines_eq_two {separator : Char} {text first second : Text}
    (two : lines separator text = [first, second]) :
    ∃ tail, text = first ++ separator :: (second ++ tail) ∧ separator ∉ first ∧
      separator ∉ second ∧ (tail = [] ∨ tail = [separator]) := by
  by_cases separated : separator ∈ text
  · rcases List.eq_append_cons_of_mem separated with ⟨front, back, rfl, free⟩
    rw [lines_append_cons free, List.cons.injEq] at two
    obtain ⟨rfl, one⟩ := two
    by_cases more : separator ∈ back
    · rcases List.eq_append_cons_of_mem more with ⟨middle, last, rfl, middleFree⟩
      rw [lines_append_cons middleFree, List.cons.injEq] at one
      obtain ⟨rfl, none⟩ := one
      cases last with
      | nil => exact ⟨[separator], rfl, free, middleFree, .inr rfl⟩
      | cons byte last => exact absurd none (lines_ne_nil separator (List.cons_ne_nil byte last))
    · cases back with
      | nil => simp [lines] at one
      | cons byte back =>
          rw [lines_of_not_mem (List.cons_ne_nil byte back) more, List.cons.injEq] at one
          obtain ⟨rfl, -⟩ := one
          exact ⟨[], by rw [List.append_nil], free, more, .inl rfl⟩
  · cases text with
    | nil => simp [lines] at two
    | cons byte text =>
        rw [lines_of_not_mem (List.cons_ne_nil byte text) separated] at two
        simp at two

/-- Of two parts, the second is the one behind any separator. -/
theorem eq_second_of_lines {separator : Char} {front part tail first second : Text}
    (nonempty : part ≠ []) (free : separator ∉ part)
    (ends : tail = [] ∨ ∃ rest, tail = separator :: rest)
    (two : lines separator (front ++ separator :: (part ++ tail)) = [first, second]) :
    second = part := by
  have behind : ∃ more, lines separator (part ++ tail) = part :: more := by
    rcases ends with rfl | ⟨rest, rfl⟩
    · rw [List.append_nil, lines_of_not_mem nonempty free]
      exact ⟨[], rfl⟩
    · rw [lines_append_cons free]
      exact ⟨_, rfl⟩
  rcases behind with ⟨more, partEq⟩
  rw [lines_append_cons_eq, partEq] at two
  cases frontEq : front.splitOn separator with
  | nil => exact absurd frontEq (List.splitOn_ne_nil separator front)
  | cons piece pieces =>
      rw [frontEq, List.cons_append, List.cons.injEq] at two
      cases pieces with
      | nil => exact (List.cons.inj two.2).1.symm
      | cons other pieces => simp at two

/-! ## Blanks around a text -/

theorem Blank.isSpace {text : Text} (blank : Blank text) : ∀ byte ∈ text, isSpace byte = true := by
  intro byte member
  rcases blank byte member with rfl | rfl <;> decide

theorem Blank.not_mem {text : Text} (blank : Blank text) {byte : Char}
    (visible : Text.isSpace byte = false) : byte ∉ text := by
  intro member
  rw [blank.isSpace byte member] at visible
  contradiction

/-- What follows the spaces of a text is the same however it is written. -/
theorem behind_spaces_eq {spaces blanks text other : Text}
    (spacesBefore : ∀ byte ∈ spaces, isSpace byte = true)
    (blanksBefore : ∀ byte ∈ blanks, isSpace byte = true)
    (visible : ∀ byte ∈ text.head?, isSpace byte = false)
    (visibleOther : ∀ byte ∈ other.head?, isSpace byte = false)
    (same : spaces ++ text = blanks ++ other) : text = other := by
  have first : (spaces ++ text).dropWhile isSpace = text :=
    (span_iff.mpr ⟨rfl, spacesBefore, visible⟩).2
  rw [← first, same]
  exact (span_iff.mpr ⟨rfl, blanksBefore, visibleOther⟩).2

/-- The last visible byte is the same however a text is written. -/
theorem last_visible_eq {front other spaces blanks : Text} {byte last : Char}
    (visible : isSpace byte = false) (visibleLast : isSpace last = false)
    (spacesBehind : ∀ byte ∈ spaces, isSpace byte = true)
    (blanksBehind : ∀ byte ∈ blanks, isSpace byte = true)
    (same : front ++ byte :: spaces = other ++ last :: blanks) : byte = last := by
  have reversed := congrArg (List.dropWhile isSpace ∘ List.reverse) same
  have behind : ∀ {text rest : Text} {byte : Char}, isSpace byte = false →
      (∀ byte ∈ rest, isSpace byte = true) →
      (text ++ byte :: rest).reverse.dropWhile isSpace = byte :: text.reverse := by
    intro text rest byte visible spaces
    rw [List.reverse_append, List.reverse_cons, List.append_assoc,
      List.dropWhile_append_of_pos fun byte member => spaces byte (List.mem_reverse.mp member),
      List.singleton_append, List.dropWhile_cons_of_neg (by simp [visible])]
  rw [Function.comp_apply, Function.comp_apply, behind visible spacesBehind,
    behind visibleLast blanksBehind] at reversed
  exact (List.cons.inj reversed).1

/-! ## What the parser accepts -/

/-- A piece between commas that the parser goes past. -/
def PassedOver (piece : Text) : Prop :=
  ∃ target relation, lines ';' piece = [target, relation] ∧ trim relation ≠ relNext

/-- A piece between commas at which the parser returns. -/
def NamesNext (piece : Text) : Prop :=
  ∃ target relation, lines ';' piece = [target, relation] ∧ trim relation = relNext ∧
    startsWith (trim target) "<".toList = true ∧ endsWith (trim target) ">".toList = true

namespace LinkValue

/-- Every piece of a link is passed over. -/
def Skipped (link : LinkValue) : Prop :=
  ∀ piece ∈ link.text.splitOn ',', PassedOver piece

/-- A link with the one parameter `rel="next"`, whose target has no separators. -/
structure PlainNext (link : LinkValue) : Prop where
  relation : ∃ param, link.params = [param] ∧ param.name = "rel".toList ∧
    param.value = "next".toList
  noComma : ',' ∉ link.uri
  noSemicolon : ';' ∉ link.uri

end LinkValue

/-- Behind skipped links there is a plain one to the next page. -/
def ReachesNext (links : List LinkValue) : Prop :=
  ∃ skipped link others, links = skipped ++ link :: others ∧
    (∀ other ∈ skipped, other.Skipped) ∧ link.PlainNext

theorem nextUrlOfLinks_skipped {content : Text} {pieces : List Text}
    (passed : ∀ piece ∈ pieces, PassedOver piece) (rest : List Text) :
    nextUrlOfLinks content (pieces ++ rest) = nextUrlOfLinks content rest := by
  induction pieces with
  | nil => rfl
  | cons piece pieces inductionHypothesis =>
      obtain ⟨target, relation, two, other⟩ := passed piece List.mem_cons_self
      rw [List.cons_append, nextUrlOfLinks, two]
      dsimp only
      rw [if_neg (show trim relation ≠ "rel=\"next\"".toList from other),
        inductionHypothesis fun piece member => passed piece (List.mem_cons_of_mem _ member)]

/-- A result comes from one of the first pieces, or from the others. -/
theorem namesNext_or_passedOver {content target : Text} {pieces rest : List Text}
    (result : nextUrlOfLinks content (pieces ++ rest) = .ok target) :
    (∃ piece ∈ pieces, NamesNext piece) ∨
      (∀ piece ∈ pieces, PassedOver piece) ∧ nextUrlOfLinks content rest = .ok target := by
  induction pieces with
  | nil => exact .inr ⟨by simp, result⟩
  | cons piece pieces inductionHypothesis =>
      rw [List.cons_append, nextUrlOfLinks] at result
      split at result
      · rename_i first relation two
        split at result
        · rename_i isNext
          dsimp only at result
          split at result
          · contradiction
          · rename_i bracketed
            rw [Bool.not_eq_true, Bool.or_eq_false_iff, Bool.not_eq_false', Bool.not_eq_false'] at bracketed
            exact .inl ⟨piece, List.mem_cons_self, first, relation, two, isNext, bracketed⟩
        · rename_i other
          rcases inductionHypothesis result with ⟨later, member, names⟩ | ⟨passed, result⟩
          · exact .inl ⟨later, List.mem_cons_of_mem _ member, names⟩
          · right
            refine ⟨?_, result⟩
            rw [List.forall_mem_cons]
            exact ⟨⟨first, relation, two, other⟩, passed⟩
      · contradiction

/-! ## Bytes of a link -/

theorem LinkParam.text_eq (param : LinkParam) :
    ∃ front, param.text = front ++ ['"'] := by
  refine ⟨param.before ++ ';' :: (param.after ++ (param.name ++ '=' :: '"' :: param.value)), ?_⟩
  rw [LinkParam.text]
  simp [List.append_assoc]

/-- The last visible byte of a link closes a value. -/
theorem LinkValue.exists_paramsText_eq (link : LinkValue) :
    ∃ front, link.paramsText = front ++ '"' :: link.after := by
  obtain ⟨params, last, eq⟩ : ∃ params last, link.params = params ++ [last] :=
    ⟨_, _, (List.dropLast_append_getLast link.parametrized).symm⟩
  obtain ⟨front, lastEq⟩ := last.text_eq
  refine ⟨params.flatMap LinkParam.text ++ front, ?_⟩
  rw [LinkValue.paramsText, eq, List.flatMap_append, List.flatMap_singleton, lastEq]
  simp [List.append_assoc]

/-- No link ends with a comma. -/
theorem LinkValue.exists_text_eq (link : LinkValue) :
    ∃ front byte, link.text = front ++ [byte] ∧ byte ≠ ',' := by
  obtain ⟨front, paramsEq⟩ := link.exists_paramsText_eq
  rw [LinkValue.text, paramsEq]
  rcases List.eq_nil_or_concat link.after with afterEq | ⟨after, last, afterEq⟩
  · refine ⟨link.before ++ '<' :: (link.uri ++ '>' :: front), '"', ?_, by decide⟩
    rw [afterEq]
    simp [List.append_assoc]
  · refine ⟨link.before ++ '<' :: (link.uri ++ '>' :: (front ++ '"' :: after)), last, ?_, ?_⟩
    · rw [afterEq]
      simp [List.append_assoc]
    · rintro rfl
      apply link.blankAfter.not_mem (show isSpace ',' = false by decide)
      rw [afterEq]
      simp

/-- The pieces of a header are those of its links. -/
theorem lines_linkHeader_cons (link : LinkValue) (rest : List LinkValue) :
    lines ',' (linkHeader (link :: rest)) =
      link.text.splitOn ',' ++ lines ',' (linkHeader rest) := by
  cases rest with
  | nil =>
      obtain ⟨front, byte, textEq, other⟩ := link.exists_text_eq
      have none : lines ',' (linkHeader []) = [] := by decide
      rw [none, List.append_nil, linkHeader, textEq, lines_append_singleton other]
  | cons next rest => rw [linkHeader, lines_append_cons_eq]

/-- Behind a value there is a blank, the next parameter or the end. -/
theorem behind_value_cases (params : List LinkParam) (after : Text) :
    params.flatMap LinkParam.text ++ after = after ∧ params = [] ∨
      ∃ spaces rest, params.flatMap LinkParam.text ++ after = spaces ++ ';' :: rest ∧
        Blank spaces := by
  cases params with
  | nil => exact .inl ⟨rfl, rfl⟩
  | cons param params =>
      right
      refine ⟨param.before, param.after ++ (param.name ++ '=' :: '"' :: (param.value ++ ['"'])) ++
        (params.flatMap LinkParam.text ++ after), ?_, param.blankBefore⟩
      rw [List.flatMap_cons, LinkParam.text, List.append_assoc, List.append_assoc, List.cons_append]

/-! ## Skipped links -/

/-- The relation to a next page is the whole second part of its piece. -/
theorem not_passedOver_of_next {front spaces blanks tail piece : Text}
    (spacesBefore : Blank spaces) (spacesBehind : Blank blanks)
    (ends : tail = [] ∨ ∃ rest, tail = ';' :: rest)
    (pieceEq : piece = front ++ ';' :: (spaces ++ (relNext ++ blanks) ++ tail)) :
    ¬ PassedOver piece := by
  rintro ⟨target, relation, two, other⟩
  have free : ';' ∉ spaces ++ (relNext ++ blanks) := by
    rw [List.mem_append, List.mem_append]
    rintro (inSpaces | inRelation | inBlanks)
    · exact spacesBefore.not_mem (by decide) inSpaces
    · exact absurd inRelation (by decide)
    · exact spacesBehind.not_mem (by decide) inBlanks
  have nonempty : spaces ++ (relNext ++ blanks) ≠ [] :=
    List.append_ne_nil_of_right_ne_nil _ (List.append_ne_nil_of_left_ne_nil (by decide) _)
  rw [pieceEq] at two
  apply other
  rw [eq_second_of_lines nonempty free ends two]
  exact trim_of_spaces spacesBefore.isSpace spacesBehind.isSpace (by decide) (by decide)
    (by decide)

/-- A skipped link has no parameter `rel="next"`. -/
theorem LinkValue.Skipped.not_next {link : LinkValue} (skipped : link.Skipped)
    {param : LinkParam} (member : param ∈ link.params) (isRel : param.name = "rel".toList) :
    param.value ≠ "next".toList := by
  intro isNext
  obtain ⟨earlier, later, paramsEq⟩ := List.append_of_mem member
  have relationEq : param.text = param.before ++ ';' :: (param.after ++ relNext) := by
    rw [LinkParam.text, isRel, isNext]
    rfl
  generalize frontEq : link.before ++ '<' :: (link.uri ++ '>' ::
    (earlier.flatMap LinkParam.text ++ param.before)) = front
  have textEq : link.text = front ++ (';' :: (param.after ++ relNext) ++
      (later.flatMap LinkParam.text ++ link.after)) := by
    rw [LinkValue.text, LinkValue.paramsText, paramsEq, List.flatMap_append, List.flatMap_cons,
      relationEq, ← frontEq]
    simp only [List.append_assoc, List.cons_append]
  have free : ',' ∉ ';' :: (param.after ++ relNext) := by
    rw [List.mem_cons, List.mem_append]
    rintro (isSemicolon | inSpaces | inRelation)
    · exact absurd isSemicolon (by decide)
    · exact param.blankAfter.not_mem (by decide) inSpaces
    · exact absurd inRelation (by decide)
  obtain ⟨near, -, isPiece⟩ := exists_piece_around ',' front (';' :: (param.after ++ relNext) ++
    (later.flatMap LinkParam.text ++ link.after))
  rw [← textEq, takeWhile_append free] at isPiece
  have noComma : isSpace ',' = false := by decide
  rcases behind_value_cases later link.after with ⟨behindEq, -⟩ |
    ⟨spaces, rest, behindEq, blank⟩
  · rw [behindEq, takeWhile_ne_of_not_mem (link.blankAfter.not_mem noComma)] at isPiece
    apply not_passedOver_of_next param.blankAfter link.blankAfter (.inl rfl) _ (skipped _ isPiece)
    · exact near
    · simp only [List.append_assoc, List.cons_append, List.append_nil]
  · rw [behindEq, takeWhile_append (blank.not_mem noComma),
      List.takeWhile_cons_of_pos (by decide)] at isPiece
    apply not_passedOver_of_next param.blankAfter blank
      (.inr ⟨rest.takeWhile (· ≠ ','), rfl⟩) _ (skipped _ isPiece)
    · exact near
    · simp only [List.append_assoc, List.cons_append]

theorem LinkValue.Skipped.rel?_ne {link : LinkValue} (skipped : link.Skipped) :
    link.rel? ≠ some "next".toList := by
  intro isNext
  obtain ⟨param, found, valueEq⟩ := Option.map_eq_some_iff.mp isNext
  have isRel := List.find?_some (p := fun param : LinkParam => decide (param.name = "rel".toList))
    found
  exact skipped.not_next (List.mem_of_find?_eq_some found) (of_decide_eq_true isRel) valueEq

/-! ## Plain links -/

namespace LinkValue.PlainNext

theorem exists_text_eq {link : LinkValue} (plain : link.PlainNext) :
    ∃ spaces blanks, Blank spaces ∧ Blank blanks ∧
      link.text = (link.before ++ ('<' :: link.uri ++ ['>'] ++ spaces)) ++
        ';' :: (blanks ++ (relNext ++ link.after)) := by
  obtain ⟨param, paramsEq, isRel, isNext⟩ := plain.relation
  refine ⟨param.before, param.after, param.blankBefore, param.blankAfter, ?_⟩
  have relationEq : param.text = param.before ++ ';' :: (param.after ++ relNext) := by
    rw [LinkParam.text, isRel, isNext]
    rfl
  rw [LinkValue.text, LinkValue.paramsText, paramsEq, List.flatMap_singleton, relationEq]
  simp only [List.append_assoc, List.cons_append, List.nil_append]

theorem rel?_eq {link : LinkValue} (plain : link.PlainNext) : link.rel? = some "next".toList := by
  obtain ⟨param, paramsEq, isRel, isNext⟩ := plain.relation
  rw [LinkValue.rel?, paramsEq, List.find?_singleton, if_pos (decide_eq_true isRel),
    Option.map_some, isNext]

/-- At a plain link to the next page the parser returns its target. -/
theorem nextUrlOfLinks_eq {link : LinkValue} (plain : link.PlainNext) (content : Text)
    (rest : List Text) :
    nextUrlOfLinks content (link.text.splitOn ',' ++ rest) = .ok link.uri := by
  obtain ⟨spaces, blanks, blankSpaces, blankBlanks, textEq⟩ := plain.exists_text_eq
  have targetFree : ∀ {byte : Char}, byte ∉ link.uri → byte ∉ ['<', '>'] →
      isSpace byte = false → byte ∉ link.before ++ ('<' :: link.uri ++ ['>'] ++ spaces) := by
    intro byte notInside notBracket visible
    have notBefore := link.blankBefore.not_mem visible
    have notSpace := blankSpaces.not_mem visible
    simp only [List.mem_cons, not_or] at notBracket
    simp [notInside, notBefore, notSpace, notBracket]
  have relationFree : ∀ {byte : Char}, byte ∉ relNext → isSpace byte = false →
      byte ∉ blanks ++ (relNext ++ link.after) := by
    intro byte notInside visible
    rw [List.mem_append, List.mem_append]
    exact not_or.mpr ⟨blankBlanks.not_mem visible, not_or.mpr ⟨notInside,
      link.blankAfter.not_mem visible⟩⟩
  have onePiece : ',' ∉ link.text := by
    rw [textEq, List.mem_append, List.mem_cons]
    rintro (inTarget | isSemicolon | inRelation)
    · exact targetFree plain.noComma (by decide) (by decide) inTarget
    · exact absurd isSemicolon (by decide)
    · exact relationFree (by decide) (by decide) inRelation
  have nonempty : blanks ++ (relNext ++ link.after) ≠ [] :=
    List.append_ne_nil_of_right_ne_nil _ (List.append_ne_nil_of_left_ne_nil (by decide) _)
  have two : lines ';' link.text = [link.before ++ ('<' :: link.uri ++ ['>'] ++ spaces),
      blanks ++ (relNext ++ link.after)] := by
    rw [textEq, lines_append_cons (targetFree plain.noSemicolon (by decide) (by decide)),
      lines_of_not_mem nonempty (relationFree (by decide) (by decide))]
  have isNext : trim (blanks ++ (relNext ++ link.after)) = "rel=\"next\"".toList :=
    trim_of_spaces blankBlanks.isSpace link.blankAfter.isSpace (by decide) (by decide) (by decide)
  have target : trim (link.before ++ ('<' :: link.uri ++ ['>'] ++ spaces)) =
      '<' :: link.uri ++ ['>'] := by
    apply trim_of_spaces link.blankBefore.isSpace blankSpaces.isSpace
    · intro byte first
      obtain rfl := Option.some.inj first
      decide
    · rw [List.getLast?_concat]
      intro byte last
      obtain rfl := Option.some.inj last
      decide
    · exact List.cons_ne_nil _ _
  have starts : startsWith ('<' :: link.uri ++ ['>']) "<".toList = true :=
    startsWith_iff.mpr ⟨link.uri ++ ['>'], rfl⟩
  have ends : endsWith ('<' :: link.uri ++ ['>']) ">".toList = true :=
    List.isSuffixOf_iff_suffix.mpr ⟨'<' :: link.uri, rfl⟩
  have inside : substr ('<' :: link.uri ++ ['>']) 1 (('<' :: link.uri ++ ['>']).length - 2) =
      link.uri := by
    have cut : '<' :: link.uri ++ ['>'] = ['<'] ++ (link.uri ++ ['>']) := rfl
    apply substr_of_eq cut rfl
    simp
  rw [List.splitOn_eq_singleton onePiece, List.singleton_append, nextUrlOfLinks, two]
  dsimp only
  rw [if_pos isNext, target, starts, ends, if_neg (by decide), inside]

end LinkValue.PlainNext

/-! ## Where a relation can stand -/

/-- Up to its first quote, and behind it. -/
theorem relNext_eq : relNext = "rel".toList ++ '=' :: '"' :: ("next".toList ++ ['"']) := by
  decide

/-- No relation is behind a semicolon of a target. -/
theorem no_relation_in_uri {spaces rest behind paramsText : Text}
    (spacesBefore : ∀ byte ∈ spaces, isSpace byte = true) (noQuote : '"' ∉ rest)
    (same : spaces ++ (relNext ++ behind) = rest ++ '>' :: paramsText) : False := by
  have split : spaces ++ (relNext ++ behind) =
      (spaces ++ "rel=".toList) ++ '"' :: ("next\"".toList ++ behind) := by
    rw [List.append_assoc]
    rfl
  rw [split] at same
  rcases cut_cases same with ⟨inside, frontEq, -⟩ | ⟨inside, restEq, backEq⟩
  · have member : '>' ∈ spaces ++ "rel=".toList := by
      rw [frontEq]
      exact List.mem_append_right _ List.mem_cons_self
    rcases List.mem_append.mp member with inSpaces | inName
    · exact absurd (spacesBefore _ inSpaces) (by decide)
    · exact absurd inName (by decide)
  · cases inside with
    | nil => exact absurd (List.cons.inj backEq).1 (by decide)
    | cons byte inside =>
        obtain ⟨rfl, -⟩ := List.cons.inj backEq
        exact noQuote (restEq ▸ List.mem_append_right _ List.mem_cons_self)

/-- No relation is behind a semicolon of a value. -/
theorem no_relation_in_value {spaces rest behind after : Text} {params : List LinkParam}
    (spacesBefore : ∀ byte ∈ spaces, isSpace byte = true) (noQuote : '"' ∉ rest)
    (blank : Blank after)
    (same : spaces ++ (relNext ++ behind) =
      rest ++ '"' :: (params.flatMap LinkParam.text ++ after)) : False := by
  have split : spaces ++ (relNext ++ behind) =
      (spaces ++ "rel=".toList) ++ '"' :: ('n' :: ("ext\"".toList ++ behind)) := by
    rw [List.append_assoc]
    rfl
  have free : '"' ∉ spaces ++ "rel=".toList := by
    rw [List.mem_append]
    rintro (inSpaces | inName)
    · exact absurd (spacesBefore _ inSpaces) (by decide)
    · exact absurd inName (by decide)
  rw [split, append_cons_inj free noQuote] at same
  rcases behind_value_cases params after with ⟨behindEq, -⟩ | ⟨blanks, others, behindEq, blanksOnly⟩
  · rw [behindEq] at same
    exact blank.not_mem (show isSpace 'n' = false by decide) (same.2 ▸ List.mem_cons_self)
  · rw [behindEq] at same
    cases blanks with
    | nil => exact absurd (List.cons.inj same.2).1 (by decide)
    | cons byte blanks =>
        obtain ⟨rfl, -⟩ := List.cons.inj same.2
        exact blanksOnly.not_mem (show isSpace 'n' = false by decide) List.mem_cons_self

/-- Among parameters, a relation stands where a parameter does. -/
theorem exists_param_of_relation {params : List LinkParam} {after first spaces behind : Text}
    (blank : Blank after) (spacesBefore : ∀ byte ∈ spaces, isSpace byte = true)
    (same : params.flatMap LinkParam.text ++ after =
      first ++ ';' :: (spaces ++ (relNext ++ behind))) :
    ∃ earlier param later, params = earlier ++ param :: later ∧
      first = earlier.flatMap LinkParam.text ++ param.before ∧
      spaces ++ (relNext ++ behind) = param.after ++ (param.name ++ '=' :: '"' ::
        (param.value ++ '"' :: (later.flatMap LinkParam.text ++ after))) := by
  induction params generalizing first with
  | nil =>
      have member : ';' ∈ after := by
        rw [List.flatMap_nil, List.nil_append] at same
        rw [same]
        exact List.mem_append_right _ List.mem_cons_self
      exact absurd member (blank.not_mem (by decide))
  | cons param params inductionHypothesis =>
      rw [List.flatMap_cons, List.append_assoc] at same
      rcases cut_cases same with ⟨rest, textEq, restEq⟩ | ⟨inside, firstEq, later⟩
      · rw [LinkParam.text] at textEq
        rcases cut_cases textEq with ⟨_, beforeEq, -⟩ | ⟨inside, firstEq, behindEq⟩
        · have member : ';' ∈ param.before := by
            rw [beforeEq]
            exact List.mem_append_right _ List.mem_cons_self
          exact absurd member (param.blankBefore.not_mem (by decide))
        · cases inside with
          | nil =>
              refine ⟨[], param, params, rfl, ?_, ?_⟩
              · rw [firstEq, List.append_nil, List.flatMap_nil, List.nil_append]
              · rw [restEq, ← (List.cons.inj behindEq).2]
                simp only [List.append_assoc, List.cons_append, List.nil_append]
          | cons byte inside =>
              -- a semicolon behind the name is one of the value
              exfalso
              have cut := (List.cons.inj behindEq).2
              have grouped : param.after ++ (param.name ++ '=' :: '"' :: (param.value ++ ['"'])) =
                  (param.after ++ (param.name ++ ['=', '"'])) ++ (param.value ++ ['"']) := by
                simp only [List.append_assoc, List.cons_append, List.nil_append]
              rw [grouped] at cut
              rcases cut_cases cut with ⟨_, nameEq, -⟩ | ⟨value, -, valueEq⟩
              · have member : ';' ∈ param.after ++ (param.name ++ ['=', '"']) := by
                  rw [nameEq]
                  exact List.mem_append_right _ List.mem_cons_self
                rcases List.mem_append.mp member with inSpaces | inName
                · exact param.blankAfter.not_mem (by decide) inSpaces
                · rcases List.mem_append.mp inName with inName | inQuote
                  · exact (param.plainName _ inName).2 (by decide)
                  · exact absurd inQuote (by decide)
              · rcases cut_cases valueEq with ⟨tail, isValue, tailEq⟩ | ⟨tail, -, quoteEq⟩
                · have noQuote : '"' ∉ tail := by
                    intro member
                    apply param.quoted
                    rw [isValue]
                    exact List.mem_append_right _ (List.mem_cons_of_mem _ member)
                  apply no_relation_in_value spacesBefore noQuote blank
                  rw [restEq, tailEq, List.append_assoc, List.singleton_append]
                · have member : ';' ∈ ['"'] := by
                    rw [quoteEq]
                    exact List.mem_append_right _ List.mem_cons_self
                  exact absurd member (by decide)
      · obtain ⟨earlier, found, others, rfl, insideEq, relationEq⟩ := inductionHypothesis later
        refine ⟨param :: earlier, found, others, rfl, ?_, relationEq⟩
        rw [firstEq, insideEq, List.flatMap_cons, List.append_assoc]

/-- In a link, too. -/
theorem LinkValue.exists_param_of_relation {link : LinkValue} {first spaces behind : Text}
    (spacesBefore : ∀ byte ∈ spaces, isSpace byte = true)
    (same : link.text = first ++ ';' :: (spaces ++ (relNext ++ behind))) :
    ∃ earlier param later, link.params = earlier ++ param :: later ∧
      first = (link.before ++ ['<']) ++ (link.uri ++ '>' ::
        (earlier.flatMap LinkParam.text ++ param.before)) ∧
      spaces ++ (relNext ++ behind) = param.after ++ (param.name ++ '=' :: '"' ::
        (param.value ++ '"' :: (later.flatMap LinkParam.text ++ link.after))) := by
  have grouped : link.text = (link.before ++ ['<']) ++ (link.uri ++ '>' :: link.paramsText) := by
    rw [LinkValue.text, List.append_assoc, List.singleton_append]
  rw [grouped] at same
  rcases cut_cases same with ⟨_, beforeEq, -⟩ | ⟨inside, firstEq, cut⟩
  · have member : ';' ∈ link.before ++ ['<'] := by
      rw [beforeEq]
      exact List.mem_append_right _ List.mem_cons_self
    rcases List.mem_append.mp member with inSpaces | isBracket
    · exact absurd inSpaces (link.blankBefore.not_mem (by decide))
    · exact absurd isBracket (by decide)
  · rcases cut_cases cut with ⟨rest, uriEq, restEq⟩ | ⟨behindUri, insideEq, paramsEq⟩
    · exfalso
      apply no_relation_in_uri spacesBefore _ restEq
      intro member
      apply link.uriBytes '"' _ (by decide)
      rw [uriEq]
      exact List.mem_append_right _ (List.mem_cons_of_mem _ member)
    · cases behindUri with
      | nil => exact absurd (List.cons.inj paramsEq).1 (by decide)
      | cons byte behindUri =>
          obtain ⟨rfl, behindEq⟩ := List.cons.inj paramsEq
          obtain ⟨earlier, param, later, isParam, frontEq, relationEq⟩ :=
            HuggingFace.exists_param_of_relation link.blankAfter spacesBefore behindEq
          exact ⟨earlier, param, later, isParam, by rw [firstEq, insideEq, frontEq], relationEq⟩

/-- A relation in brackets and quotes is the one that is looked for. -/
theorem LinkParam.isNext_of_relation {param : LinkParam} {spaces behind rest : Text}
    (spacesBefore : ∀ byte ∈ spaces, isSpace byte = true)
    (same : spaces ++ (relNext ++ behind) =
      param.after ++ (param.name ++ '=' :: '"' :: (param.value ++ '"' :: rest))) :
    param.name = "rel".toList ∧ param.value = "next".toList ∧ behind = rest := by
  have grouped : spaces ++ (relNext ++ behind) =
      (spaces ++ "rel".toList) ++ '=' :: '"' :: ("next".toList ++ '"' :: behind) := by
    rw [relNext_eq]
    simp only [List.append_assoc, List.cons_append, List.nil_append]
  have free : '=' ∉ spaces ++ "rel".toList := by
    rw [List.mem_append]
    rintro (inSpaces | inName)
    · exact absurd (spacesBefore _ inSpaces) (by decide)
    · exact absurd inName (by decide)
  have nameFree : '=' ∉ param.after ++ param.name := by
    rw [List.mem_append]
    rintro (inSpaces | inName)
    · exact param.blankAfter.not_mem (by decide) inSpaces
    · exact (param.plainName _ inName).2 (by decide)
  rw [grouped, ← List.append_assoc param.after, append_cons_inj free nameFree] at same
  obtain ⟨names, values⟩ := same
  rw [List.cons.injEq, append_cons_inj (by decide) param.quoted] at values
  refine ⟨?_, values.2.1.symm, values.2.2⟩
  apply (behind_spaces_eq spacesBefore param.blankAfter.isSpace (by decide) _ names).symm
  intro byte first
  exact (param.plainName byte (List.mem_of_mem_head? first)).1

/-- Behind the relation of a piece there are no more parameters. -/
theorem later_eq_nil {later : List LinkParam} {after blanks tail back : Text}
    (spacesBehind : ∀ byte ∈ blanks, isSpace byte = true)
    (cut : tail = [] ∨ tail = [';']) (ends : back = [] ∨ ∃ rest, back = ',' :: rest)
    (same : blanks ++ (tail ++ back) = later.flatMap LinkParam.text ++ after) : later = [] := by
  cases later with
  | nil => rfl
  | cons param later =>
      exfalso
      have behind : blanks ++ (tail ++ back) = param.before ++ ';' :: (param.after ++
          (param.name ++ '=' :: '"' :: (param.value ++ '"' :: (later.flatMap LinkParam.text ++ after)))) := by
        rw [same, List.flatMap_cons, LinkParam.text]
        simp only [List.append_assoc, List.cons_append, List.nil_append]
      have visible : ∀ byte ∈ (tail ++ back).head?, isSpace byte = false := by
        rcases cut with rfl | rfl
        · rcases ends with rfl | ⟨rest, rfl⟩
          · simp
          · intro byte first
            obtain rfl := Option.some.inj first
            decide
        · intro byte first
          obtain rfl := Option.some.inj first
          decide
      have semicolon : ∀ byte ∈ (';' :: (param.after ++ (param.name ++ '=' :: '"' :: (param.value ++
          '"' :: (later.flatMap LinkParam.text ++ after))))).head?, isSpace byte = false := by
        intro byte first
        obtain rfl := Option.some.inj first
        decide
      have cutEq := behind_spaces_eq spacesBehind param.blankBefore.isSpace visible semicolon behind
      rcases cut with rfl | rfl
      · rcases ends with rfl | ⟨rest, rfl⟩
        · contradiction
        · exact absurd (List.cons.inj cutEq).1 (by decide)
      · have backEq : back = (param.after ++ param.name) ++ '=' :: '"' :: (param.value ++
            '"' :: (later.flatMap LinkParam.text ++ after)) := by
          rw [List.append_assoc]
          exact (List.cons.inj cutEq).2
        have free : ',' ∉ param.after ++ param.name := by
          rw [List.mem_append]
          rintro (inSpaces | inName)
          · exact param.blankAfter.not_mem (by decide) inSpaces
          · exact (param.plainName _ inName).2 (by decide)
        rcases ends with rfl | ⟨rest, rfl⟩
        · simp at backEq
        · cases nameEq : param.after ++ param.name with
          | nil =>
              rw [nameEq] at backEq
              exact absurd (List.cons.inj backEq).1 (by decide)
          | cons byte name =>
              rw [nameEq] at backEq free
              obtain ⟨rfl, -⟩ := List.cons.inj backEq
              exact free List.mem_cons_self

/-- A link at which the parser returns is a plain one. -/
theorem LinkValue.plainNext_of_namesNext {link : LinkValue} {piece : Text}
    (isPiece : piece ∈ link.text.splitOn ',') (names : NamesNext piece) : link.PlainNext := by
  obtain ⟨target, relation, two, isNext, opening, closing⟩ := names
  obtain ⟨tail, pieceEq, targetFree, -, cut⟩ := exists_of_lines_eq_two two
  obtain ⟨front, back, textEq, pieceFree, starts, ends⟩ := exists_of_mem_splitOn isPiece
  obtain ⟨spaces, blanks, relationEq, spacesBefore, spacesBehind⟩ := exists_of_trim relation
  rw [isNext] at relationEq
  have whole : link.text = (front ++ target) ++
      ';' :: (spaces ++ (relNext ++ (blanks ++ (tail ++ back)))) := by
    rw [textEq, pieceEq, relationEq]
    simp only [List.append_assoc, List.cons_append]
  obtain ⟨earlier, param, later, paramsEq, frontEq, behindEq⟩ :=
    LinkValue.exists_param_of_relation spacesBefore whole
  obtain ⟨isRel, isValue, othersEq⟩ := param.isNext_of_relation spacesBefore behindEq
  obtain rfl := later_eq_nil spacesBehind cut ends othersEq
  obtain ⟨spacesAround, spacesAfter, targetEq, -, spacesLast⟩ := exists_of_trim target
  obtain ⟨opened, isOpened⟩ := startsWith_iff.mp opening
  obtain ⟨closed, isClosed⟩ := List.isSuffixOf_iff_suffix.mp closing
  -- before the relation stands the target, and no parameter
  have none : earlier = [] := by
    rcases List.eq_nil_or_concat earlier with empty | ⟨others, last, rfl⟩
    · exact empty
    · exfalso
      obtain ⟨quoted, lastEq⟩ := last.text_eq
      have same : (front ++ (spacesAround ++ closed)) ++ '>' :: spacesAfter =
          ((link.before ++ ['<']) ++ (link.uri ++ '>' :: (others.flatMap LinkParam.text ++ quoted))) ++
            '"' :: param.before := by
        calc (front ++ (spacesAround ++ closed)) ++ '>' :: spacesAfter = front ++ target := by
              rw [targetEq, ← isClosed, List.append_assoc, List.append_assoc, List.append_assoc]
              rfl
          _ = _ := by
              rw [frontEq, List.concat_eq_append, List.flatMap_append, List.flatMap_singleton,
                lastEq]
              simp only [List.append_assoc, List.cons_append, List.nil_append]
      exact absurd (last_visible_eq (by decide) (by decide) spacesLast param.blankBefore.isSpace same)
        (by decide)
  subst none
  rw [List.flatMap_nil, List.nil_append] at frontEq
  have hasOpening : '<' ∈ target := by
    rw [targetEq, ← isOpened]
    exact List.mem_append_right _ (List.mem_append_left _ List.mem_cons_self)
  have atStart : front = [] := by
    rcases starts with empty | ⟨before, rfl⟩
    · exact empty
    · exfalso
      rw [List.append_assoc, List.singleton_append] at frontEq
      rcases cut_cases frontEq.symm with ⟨_, beforeEq, -⟩ | ⟨_, -, behindEq⟩
      · have member : ',' ∈ link.before ++ ['<'] := by
          rw [beforeEq]
          exact List.mem_append_right _ List.mem_cons_self
        rcases List.mem_append.mp member with inSpaces | isBracket
        · exact link.blankBefore.not_mem (by decide) inSpaces
        · exact absurd isBracket (by decide)
      · have member : '<' ∈ link.uri ++ '>' :: param.before := by
          rw [behindEq]
          exact List.mem_append_right _ (List.mem_cons_of_mem _ hasOpening)
        rcases List.mem_append.mp member with inUri | inSpaces
        · exact link.uriBytes '<' inUri (by decide)
        · rcases List.mem_cons.mp inSpaces with isBracket | inSpaces
          · exact absurd isBracket (by decide)
          · exact param.blankBefore.not_mem (by decide) inSpaces
  rw [atStart, List.nil_append] at frontEq
  have inTarget : ∀ {byte : Char}, byte ∈ link.uri → byte ∈ target := by
    intro byte member
    rw [frontEq]
    exact List.mem_append_right _ (List.mem_append_left _ member)
  constructor
  · exact ⟨param, paramsEq, isRel, isValue⟩
  · intro member
    apply pieceFree
    rw [pieceEq]
    exact List.mem_append_left _ (inTarget member)
  · exact fun member => targetFree (inTarget member)

/-! ## Whole headers -/

theorem nextPageOf_of_reached {skipped others : List LinkValue} {link : LinkValue}
    (passed : ∀ other ∈ skipped, other.Skipped) (plain : link.PlainNext) :
    nextPageOf (skipped ++ link :: others) = link.uri := by
  have none : skipped.find? (fun link => link.rel? = some "next".toList) = none := by
    rw [List.find?_eq_none]
    intro other member
    rw [decide_eq_true_iff]
    exact (passed other member).rel?_ne
  have found : (link :: others).find? (fun link => link.rel? = some "next".toList) = some link :=
    List.find?_cons_of_pos (decide_eq_true plain.rel?_eq)
  rw [nextPageOf, List.find?_append, none, Option.none_or, found]
  rfl

theorem nextUrlOfLinks_of_reached {skipped others : List LinkValue} {link : LinkValue}
    (content : Text) (passed : ∀ other ∈ skipped, other.Skipped) (plain : link.PlainNext) :
    nextUrlOfLinks content (lines ',' (linkHeader (skipped ++ link :: others))) = .ok link.uri := by
  induction skipped with
  | nil => rw [List.nil_append, lines_linkHeader_cons, plain.nextUrlOfLinks_eq]
  | cons first skipped inductionHypothesis =>
      rw [List.cons_append, lines_linkHeader_cons,
        nextUrlOfLinks_skipped (passed first List.mem_cons_self),
        inductionHypothesis fun other member => passed other (List.mem_cons_of_mem _ member)]

theorem reachesNext_of_ok {links : List LinkValue} {content target : Text}
    (result : nextUrlOfLinks content (lines ',' (linkHeader links)) = .ok target) :
    ReachesNext links := by
  induction links with
  | nil =>
      have none : lines ',' (linkHeader []) = [] := by decide
      rw [none, nextUrlOfLinks] at result
      contradiction
  | cons link links inductionHypothesis =>
      rw [lines_linkHeader_cons] at result
      rcases namesNext_or_passedOver result with ⟨piece, isPiece, names⟩ | ⟨passed, later⟩
      · exact ⟨[], link, links, rfl, by simp, LinkValue.plainNext_of_namesNext isPiece names⟩
      · obtain ⟨skipped, next, others, rfl, allPassed, plain⟩ := inductionHypothesis later
        refine ⟨link :: skipped, next, others, rfl, ?_, plain⟩
        rw [List.forall_mem_cons]
        exact ⟨passed, allPassed⟩

/-- No other target than that of the next page is returned. -/
theorem eq_nextPageOf_of_ok {links : List LinkValue} {target : Text}
    (result : parseNextUrlFromLinkHeader (linkHeader links) = .ok target) :
    target = nextPageOf links := by
  obtain ⟨skipped, link, others, rfl, passed, plain⟩ := reachesNext_of_ok result
  rw [parseNextUrlFromLinkHeader, nextUrlOfLinks_of_reached _ passed plain] at result
  rw [nextPageOf_of_reached passed plain]
  exact (Except.ok.inj result).symm

/-- The next page of a header is read exactly if the first link to it is plain and the
links before it are skipped; a header that names no next page is refused. -/
theorem parseNextUrlFromLinkHeader_eq_nextPageOf_iff (links : List LinkValue) :
    parseNextUrlFromLinkHeader (linkHeader links) = .ok (nextPageOf links) ↔
      ReachesNext links := by
  rw [parseNextUrlFromLinkHeader]
  constructor
  · exact reachesNext_of_ok
  · rintro ⟨skipped, link, others, rfl, passed, plain⟩
    rw [nextUrlOfLinks_of_reached _ passed plain, nextPageOf_of_reached passed plain]

/-- A link with a relation. -/
def relLink (uri relation : Text) (uriBytes : ∀ byte ∈ uri, byte ∉ ['<', '>', '"'])
    (quoted : '"' ∉ relation) : LinkValue where
  before := []
  uri
  params := [{
    before := []
    after := [' ']
    name := "rel".toList
    value := relation
    blankBefore := by simp [Blank]
    blankAfter := by simp [Blank]
    plainName := by decide
    quoted }]
  after := []
  blankBefore := by simp [Blank]
  blankAfter := by simp [Blank]
  uriBytes
  parametrized := List.cons_ne_nil _ _

/-- A header with a comma in its target, and one of a last page, are refused. -/
theorem comma_and_last_page_refused :
    let comma := relLink "https://huggingface.co/api/x?cursor=a,b".toList "next".toList
      (by decide) (by decide)
    let last := relLink "https://huggingface.co/api/x".toList "prev".toList (by decide) (by decide)
    (nextPageOf [comma] = "https://huggingface.co/api/x?cursor=a,b".toList ∧
        parseNextUrlFromLinkHeader (linkHeader [comma]) ≠ .ok (nextPageOf [comma])) ∧
      nextPageOf [last] = [] ∧
        parseNextUrlFromLinkHeader (linkHeader [last]) ≠ .ok (nextPageOf [last]) := by
  decide

end Httpfs.Http.HuggingFace
