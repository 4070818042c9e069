import Httpfs.S3.Url
import Httpfs.Text.Order
import Httpfs.Text.Percent

/-!
# Query strings

A query is written with its parameters encoded and sorted.  It is read from one `&` to
the next; a parameter without a name is passed over, and a name may come only once.
Encoding and decoding are parameters.
-/

namespace Httpfs.S3

open Text

/-! ## Writing -/

/-- The constructor of `S3RequestQuery`: what `WireQuery` returns. -/
def wireQuery (encode : Text → Text) (parameters : List (Text × Text)) : Text :=
  let encodedParameters :=
    parameters.map fun parameter => (encode parameter.1, encode parameter.2)
  (sortPairs encodedParameters).foldl (fun wireQuery parameter =>
    (if wireQuery.isEmpty then wireQuery else wireQuery ++ ['&']) ++
      (parameter.1 ++ '=' :: parameter.2)) []

/-! ## Reading -/

theorem lt_of_findFrom {byte : Char} {text : Text} {start position : Nat}
    (found : findFrom byte text start = some position) :
    start ≤ position ∧ position < text.length := by
  obtain ⟨front, middle, back, rfl, rfl, -, rfl, -⟩ := exists_cut_of_findFrom found
  constructor
  · exact Nat.le_add_right _ _
  · simp only [List.length_append, List.length_cons]
    omega

/-- A parameter that is read, if its name is new. -/
def emplace (result : QueryParams) (key value : Text) : Except ErrorData QueryParams :=
  if (result.lookup key).isSome then
    throw (.io ("Duplicate S3 URL query parameter '" ++ String.ofList key ++ "'"))
  else pure (result ++ [(key, value)])

/-- The parameter between an offset and its end. -/
def readParameter (decode : Text → Text) (urlQueryParam : Text) (offset parameterEnd : Nat)
    (result : QueryParams) : Except ErrorData QueryParams :=
  let equals :=
    match findFrom '=' urlQueryParam offset with
    | none => parameterEnd
    | some equals => if parameterEnd < equals then parameterEnd else equals
  if offset < equals then
    let key := decode (substr urlQueryParam offset (equals - offset))
    let valueOffset := if equals = parameterEnd then parameterEnd else equals + 1
    let value := decode (substr urlQueryParam valueOffset (parameterEnd - valueOffset))
    emplace result key value
  else pure result

/-- The loop of `ParseQueryParameters`, from some offset on. -/
def parseQueryParametersFrom (decode : Text → Text) (urlQueryParam : Text) (offset : Nat)
    (result : QueryParams) : Except ErrorData QueryParams :=
  if offset ≤ urlQueryParam.length then do
    let parameterEnd := (findFrom '&' urlQueryParam offset).getD urlQueryParam.length
    let result ← readParameter decode urlQueryParam offset parameterEnd result
    match found : findFrom '&' urlQueryParam offset with
    | none => pure result
    | some separator => parseQueryParametersFrom decode urlQueryParam (separator + 1) result
  else pure result
termination_by urlQueryParam.length + 1 - offset
decreasing_by
  have bounds := lt_of_findFrom found
  omega

/-! ## The reference reading -/

/-- The pieces between the separators that have a name. -/
def namedPieces (urlQueryParam : Text) : List Text :=
  (urlQueryParam.splitOn '&').filter fun piece => piece ≠ [] ∧ ¬ ['='] <+: piece

/-- Name and value of a piece: what is before its first `=` and what is behind it. -/
def decodedPair (decode : Text → Text) (piece : Text) : Text × Text :=
  (decode (piece.takeWhile (· ≠ '=')), decode ((piece.dropWhile (· ≠ '=')).drop 1))

def decodedPairs (decode : Text → Text) (urlQueryParam : Text) : QueryParams :=
  (namedPieces urlQueryParam).map (decodedPair decode)

/-! ## The loop reads the pieces -/

section

variable {decode : Text → Text}

/-- A piece without a name, or what it is read as. -/
theorem parseQueryParameter_eq (result : QueryParams) (piece : Text) :
    parseQueryParameter decode result piece =
      if piece ≠ [] ∧ ¬ ['='] <+: piece then
        emplace result (decodedPair decode piece).1 (decodedPair decode piece).2
      else pure result := by
  rw [parseQueryParameter, decodedPair]
  dsimp only
  by_cases equals : '=' ∈ piece
  · obtain ⟨name, value, rfl, free⟩ := List.eq_append_cons_of_mem equals
    have found : findFrom '=' (name ++ '=' :: value) 0 = some (0 + name.length) :=
      findFrom_of_eq (List.nil_append _).symm rfl free
    have named : (name ++ '=' :: value ≠ [] ∧ ¬ ['='] <+: name ++ '=' :: value) ↔
        0 < name.length := by
      cases name with
      | nil => simp
      | cons first name =>
          have other : '=' ≠ first := fun same => free (same ▸ List.mem_cons_self)
          simp [List.cons_prefix_cons, other]
    rw [found, Option.getD_some, Nat.zero_add, if_congr named rfl rfl, substr_zero_append,
      substrFrom_append_cons, takeWhile_ne_append free, dropWhile_ne_append free]
    rfl
  · have missing : findFrom '=' piece 0 = none :=
      findFrom_none_of_eq (List.nil_append _).symm rfl equals
    have named : (piece ≠ [] ∧ ¬ ['='] <+: piece) ↔ 0 < piece.length := by
      rw [List.length_pos_iff]
      refine and_iff_left ?_
      intro starts
      exact equals (starts.subset List.mem_cons_self)
    have all : substr piece 0 piece.length = piece := by
      have whole := substr_zero_append piece []
      rwa [List.append_nil] at whole
    have nothing : substrFrom piece (piece.length + 1) = [] :=
      List.drop_eq_nil_of_le (Nat.le_succ _)
    have dropped : piece.dropWhile (· ≠ '=') = [] := by
      rw [List.dropWhile_eq_nil_iff]
      intro other member
      exact decide_eq_true fun same : other = '=' => equals (same ▸ member)
    rw [missing, Option.getD_none, if_congr named rfl rfl, all, nothing,
      takeWhile_ne_of_not_mem equals, dropped]
    rfl

/-- The next `=` may belong to a later piece. -/
theorem equals_eq {urlQueryParam front piece back : Text}
    (pieces : urlQueryParam = front ++ (piece ++ back)) :
    (match findFrom '=' urlQueryParam front.length with
      | none => front.length + piece.length
      | some equals =>
          if front.length + piece.length < equals then front.length + piece.length else equals) =
      front.length + (piece.takeWhile (· ≠ '=')).length := by
  by_cases equals : '=' ∈ piece
  · obtain ⟨name, value, rfl, free⟩ := List.eq_append_cons_of_mem equals
    have cut : urlQueryParam = front ++ (name ++ '=' :: (value ++ back)) := by
      rw [pieces, List.append_assoc]
      rfl
    rw [findFrom_of_eq cut rfl free, takeWhile_ne_append free]
    dsimp only
    rw [if_neg]
    rw [List.length_append]
    omega
  · rw [takeWhile_ne_of_not_mem equals]
    cases found : findFrom '=' urlQueryParam front.length with
    | none => rfl
    | some position =>
        obtain ⟨before, middle, rest, cut, here, free, rfl, -⟩ := exists_cut_of_findFrom found
        have behind : piece.length ≤ middle.length := by
          by_contra shorter
          have same : front ++ (piece ++ back) = before ++ (middle ++ '=' :: rest) := by
            rw [← pieces, cut, List.append_assoc]
          have tails := (List.append_inj same here.symm).2
          have inBoth : middle ++ ['='] <+: piece ++ back := by
            rw [tails]
            exact ⟨rest, by rw [List.append_assoc]; rfl⟩
          have inPiece : middle ++ ['='] <+: piece := by
            apply List.prefix_of_prefix_length_le inBoth (List.prefix_append piece back)
            rw [List.length_append, List.length_singleton]
            omega
          exact equals (inPiece.subset (List.mem_append_right middle List.mem_cons_self))
        dsimp only
        split
        · rfl
        · rename_i notBeyond
          exact Nat.le_antisymm (Nat.le_of_not_lt notBeyond) (Nat.add_le_add_left behind _)

/-- What the loop reads at a piece. -/
theorem readParameter_eq {urlQueryParam front piece back : Text}
    (pieces : urlQueryParam = front ++ (piece ++ back)) (result : QueryParams) :
    readParameter decode urlQueryParam front.length (front.length + piece.length) result =
      parseQueryParameter decode result piece := by
  rw [parseQueryParameter_eq, readParameter, decodedPair]
  dsimp only
  rw [equals_eq pieces]
  by_cases equals : '=' ∈ piece
  · obtain ⟨name, value, rfl, free⟩ := List.eq_append_cons_of_mem equals
    have atName : urlQueryParam = front ++ (name ++ ('=' :: value ++ back)) := by
      rw [pieces, List.append_assoc]
    have atValue : urlQueryParam = front ++ (name ++ ['=']) ++ (value ++ back) := by
      rw [pieces]
      simp
    have behindName : (front ++ (name ++ ['='])).length = front.length + name.length + 1 := by
      simp [Nat.add_assoc]
    have key : substr urlQueryParam front.length name.length = name :=
      substr_of_eq atName rfl rfl
    have text : substr urlQueryParam (front.length + name.length + 1) value.length = value :=
      substr_of_eq atValue behindName rfl
    have named : (name ++ '=' :: value ≠ [] ∧ ¬ ['='] <+: name ++ '=' :: value) ↔
        front.length < front.length + name.length := by
      cases name with
      | nil => simp
      | cons first name =>
          have other : '=' ≠ first := fun same => free (same ▸ List.mem_cons_self)
          simp [List.cons_prefix_cons, other]
    have apart : front.length + name.length ≠ front.length + (name ++ '=' :: value).length := by
      simp
    have long : front.length + (name ++ '=' :: value).length - (front.length + name.length + 1) =
        value.length := by
      simp
      omega
    rw [takeWhile_ne_append free, dropWhile_ne_append free, if_congr named rfl rfl, if_neg apart,
      Nat.add_sub_cancel_left, key, long, text]
    rfl
  · have key : substr urlQueryParam front.length piece.length = piece :=
      substr_of_eq pieces rfl rfl
    have named : (piece ≠ [] ∧ ¬ ['='] <+: piece) ↔
        front.length < front.length + piece.length := by
      rw [← List.length_pos_iff, Nat.lt_add_right_iff_pos]
      refine and_iff_left ?_
      intro starts
      exact equals (starts.subset List.mem_cons_self)
    have dropped : piece.dropWhile (· ≠ '=') = [] := by
      rw [List.dropWhile_eq_nil_iff]
      intro other member
      exact decide_eq_true fun same : other = '=' => equals (same ▸ member)
    have nothing : substr urlQueryParam (front.length + piece.length) 0 = [] := List.take_zero
    rw [takeWhile_ne_of_not_mem equals, dropped, if_congr named rfl rfl, if_pos rfl,
      Nat.add_sub_cancel_left, Nat.sub_self, key, nothing]
    rfl

theorem parseQueryParametersFrom_of_separator {urlQueryParam : Text} {offset separator : Nat}
    (found : findFrom '&' urlQueryParam offset = some separator) (result : QueryParams) :
    parseQueryParametersFrom decode urlQueryParam offset result =
      readParameter decode urlQueryParam offset separator result >>=
        parseQueryParametersFrom decode urlQueryParam (separator + 1) := by
  have bounds := lt_of_findFrom found
  have atEnd : (findFrom '&' urlQueryParam offset).getD urlQueryParam.length = separator := by
    rw [found, Option.getD_some]
  rw [parseQueryParametersFrom, if_pos (Nat.le_trans bounds.1 (Nat.le_of_lt bounds.2))]
  dsimp only
  rw [atEnd]
  cases readParameter decode urlQueryParam offset separator result with
  | error error => rfl
  | ok result =>
      change (match here : findFrom '&' urlQueryParam offset with
        | none => pure result
        | some separator =>
            parseQueryParametersFrom decode urlQueryParam (separator + 1) result) = _
      split
      · rename_i missing
        rw [found] at missing
        contradiction
      · rename_i position here
        rw [found] at here
        obtain rfl := Option.some.inj here
        rfl

theorem parseQueryParametersFrom_of_last {urlQueryParam : Text} {offset : Nat}
    (within : offset ≤ urlQueryParam.length)
    (missing : findFrom '&' urlQueryParam offset = none) (result : QueryParams) :
    parseQueryParametersFrom decode urlQueryParam offset result =
      readParameter decode urlQueryParam offset urlQueryParam.length result := by
  have atEnd : (findFrom '&' urlQueryParam offset).getD urlQueryParam.length =
      urlQueryParam.length := by
    rw [missing, Option.getD_none]
  rw [parseQueryParametersFrom, if_pos within]
  dsimp only
  rw [atEnd]
  cases readParameter decode urlQueryParam offset urlQueryParam.length result with
  | error error => rfl
  | ok result =>
      change (match here : findFrom '&' urlQueryParam offset with
        | none => pure result
        | some separator =>
            parseQueryParametersFrom decode urlQueryParam (separator + 1) result) = _
      split
      · rfl
      · rename_i position here
        rw [missing] at here
        contradiction

theorem parseQueryParametersFrom_eq (front rest : Text) (result : QueryParams) :
    parseQueryParametersFrom decode (front ++ rest) front.length result =
      (rest.splitOn '&').foldlM (parseQueryParameter decode) result := by
  induction restLength : rest.length using Nat.strong_induction_on generalizing front rest result with
  | _ size inductionHypothesis =>
      subst restLength
      by_cases more : '&' ∈ rest
      · obtain ⟨piece, later, rfl, free⟩ := List.eq_append_cons_of_mem more
        have separator : findFrom '&' (front ++ (piece ++ '&' :: later)) front.length =
            some (front.length + piece.length) := findFrom_of_eq rfl rfl free
        have first := @readParameter_eq decode _ front piece ('&' :: later) rfl result
        have regrouped : front ++ (piece ++ '&' :: later) = (front ++ (piece ++ ['&'])) ++ later := by
          simp
        have offset : front.length + piece.length + 1 = (front ++ (piece ++ ['&'])).length := by
          simp [Nat.add_assoc]
        rw [parseQueryParametersFrom_of_separator separator, first,
          List.splitOn_append_cons_self_of_not_mem free, List.foldlM_cons, regrouped, offset]
        congr 1
        funext between
        exact inductionHypothesis later.length (by simp; omega) _ later between rfl
      · have missing : findFrom '&' (front ++ rest) front.length = none :=
          findFrom_none_of_eq rfl rfl more
        have first := @readParameter_eq decode (front ++ rest) front rest [] (by simp)
          result
        rw [← List.length_append] at first
        rw [parseQueryParametersFrom_of_last (by simp) missing, first,
          List.splitOn_eq_singleton more, List.foldlM_cons]
        cases parseQueryParameter decode result rest <;> rfl

/-- The whole loop goes over the pieces. -/
theorem parseQueryParametersFrom_zero (urlQueryParam : Text) :
    parseQueryParametersFrom decode urlQueryParam 0 [] =
      parseQueryParameters decode urlQueryParam :=
  parseQueryParametersFrom_eq [] urlQueryParam []

/-! ## Names that come once -/

theorem isSome_lookup_iff {result : QueryParams} {key : Text} :
    (result.lookup key).isSome = true ↔ key ∈ result.map Prod.fst := by
  rw [List.lookup_isSome_iff, List.mem_map]
  constructor
  · rintro ⟨pair, member, same⟩
    exact ⟨pair, member, (beq_iff_eq.mp same).symm⟩
  · rintro ⟨pair, member, rfl⟩
    exact ⟨pair, member, beq_self_eq_true _⟩

def emplacePair (result : QueryParams) (pair : Text × Text) : Except ErrorData QueryParams :=
  emplace result pair.1 pair.2

theorem emplacePair_of_new {result : QueryParams} {pair : Text × Text}
    (new : pair.1 ∉ result.map Prod.fst) : emplacePair result pair = .ok (result ++ [pair]) := by
  rw [emplacePair, emplace, if_neg (fun present => new (isSome_lookup_iff.mp present))]
  rfl

theorem emplacePair_of_mem {result : QueryParams} {pair : Text × Text}
    (present : pair.1 ∈ result.map Prod.fst) : ∃ error, emplacePair result pair = .error error := by
  rw [emplacePair, emplace, if_pos (isSome_lookup_iff.mpr present)]
  exact ⟨_, rfl⟩

/-- Pairs are read one after the other exactly if no name comes again. -/
theorem foldlM_emplacePair (pairs result : QueryParams)
    (distinct : (result.map Prod.fst).Nodup) :
    (((result ++ pairs).map Prod.fst).Nodup ∧
        pairs.foldlM emplacePair result = .ok (result ++ pairs)) ∨
      (¬ ((result ++ pairs).map Prod.fst).Nodup ∧
        ∃ error, pairs.foldlM emplacePair result = .error error) := by
  induction pairs generalizing result with
  | nil =>
      rw [List.append_nil]
      exact .inl ⟨distinct, rfl⟩
  | cons pair pairs inductionHypothesis =>
      have regrouped : result ++ pair :: pairs = (result ++ [pair]) ++ pairs := by
        rw [List.append_assoc]
        rfl
      rw [List.foldlM_cons]
      by_cases present : pair.1 ∈ result.map Prod.fst
      · obtain ⟨error, throws⟩ := emplacePair_of_mem present
        refine .inr ⟨?_, error, by rw [throws]; rfl⟩
        rw [List.map_append, List.map_cons, List.nodup_append]
        rintro ⟨-, -, apart⟩
        exact apart _ present _ List.mem_cons_self rfl
      · have stillDistinct : ((result ++ [pair]).map Prod.fst).Nodup := by
          rw [List.map_append, List.map_singleton, List.nodup_append]
          refine ⟨distinct, List.nodup_singleton _, ?_⟩
          rintro name inResult _ isLast rfl
          exact present (List.mem_singleton.mp isLast ▸ inResult)
        rw [emplacePair_of_new present, regrouped]
        exact inductionHypothesis (result ++ [pair]) stillDistinct

/-- The loop reads the decoded pairs one after the other. -/
theorem parseQueryParameters_eq (urlQueryParam : Text) :
    parseQueryParametersFrom decode urlQueryParam 0 [] =
      (decodedPairs decode urlQueryParam).foldlM emplacePair [] := by
  rw [parseQueryParametersFrom_zero, parseQueryParameters, decodedPairs, namedPieces]
  generalize urlQueryParam.splitOn '&' = pieces
  generalize ([] : QueryParams) = result
  induction pieces generalizing result with
  | nil => rfl
  | cons piece pieces inductionHypothesis =>
      rw [List.foldlM_cons, parseQueryParameter_eq]
      by_cases named : piece ≠ [] ∧ ¬ ['='] <+: piece
      · rw [if_pos named, List.filter_cons_of_pos (by simpa using named), List.map_cons,
          List.foldlM_cons]
        congr 1
        funext between
        exact inductionHypothesis between
      · rw [if_neg named, List.filter_cons_of_neg (by simpa using named)]
        exact inductionHypothesis result

/-- The parameters are those of the reference reading; two of one name throw. -/
theorem parseQueryParameters_reads (urlQueryParam : Text) :
    (((decodedPairs decode urlQueryParam).map Prod.fst).Nodup ∧
        parseQueryParametersFrom decode urlQueryParam 0 [] =
          .ok (decodedPairs decode urlQueryParam)) ∨
      (¬ ((decodedPairs decode urlQueryParam).map Prod.fst).Nodup ∧
        ∃ error, parseQueryParametersFrom decode urlQueryParam 0 [] = .error error) := by
  rw [parseQueryParameters_eq]
  exact foldlM_emplacePair (decodedPairs decode urlQueryParam) [] List.nodup_nil

end

/-! ## Written queries -/

/-- The written form of an encoded pair. -/
def pairText (pair : Text × Text) : Text :=
  pair.1 ++ '=' :: pair.2

theorem foldl_pairText (pairs : List (Text × Text)) {written : Text} (nonempty : written ≠ []) :
    pairs.foldl (fun wireQuery parameter =>
        (if wireQuery.isEmpty then wireQuery else wireQuery ++ ['&']) ++
          (parameter.1 ++ '=' :: parameter.2)) written =
      written ++ pairs.flatMap fun pair => '&' :: pairText pair := by
  induction pairs generalizing written with
  | nil => simp
  | cons pair pairs inductionHypothesis =>
      have more : written ++ ['&'] ++ pairText pair ≠ [] := by simp
      rw [List.foldl_cons, if_neg (by simpa using nonempty)]
      change pairs.foldl _ (written ++ ['&'] ++ pairText pair) = _
      rw [inductionHypothesis more, List.flatMap_cons]
      simp

theorem splitOn_pieces {first : Text} {rest : List Text} (firstFree : '&' ∉ first)
    (restFree : ∀ piece ∈ rest, '&' ∉ piece) :
    (first ++ rest.flatMap fun piece => '&' :: piece).splitOn '&' = first :: rest := by
  induction rest generalizing first with
  | nil =>
      rw [List.flatMap_nil, List.append_nil]
      exact List.splitOn_eq_singleton firstFree
  | cons second rest inductionHypothesis =>
      rw [List.forall_mem_cons] at restFree
      rw [List.flatMap_cons, List.cons_append, List.splitOn_append_cons_self_of_not_mem firstFree,
        inductionHypothesis restFree.1 restFree.2]

/-- Pairs without separators, with a name each. -/
structure Written (pair : Text × Text) : Prop where
  named : pair.1 ≠ []
  name : '&' ∉ pair.1 ∧ '=' ∉ pair.1
  value : '&' ∉ pair.2 ∧ '=' ∉ pair.2

theorem Written.free {pair : Text × Text} (written : Written pair) : '&' ∉ pairText pair := by
  simp [pairText, written.name.1, written.value.1]

theorem Written.isNamed {pair : Text × Text} (written : Written pair) :
    pairText pair ≠ [] ∧ ¬ ['='] <+: pairText pair := by
  obtain ⟨name, value⟩ := pair
  refine ⟨by simp [pairText], ?_⟩
  cases name with
  | nil => exact absurd rfl written.named
  | cons first name =>
      intro starts
      obtain ⟨same, -⟩ := List.cons_prefix_cons.mp starts
      exact written.name.2 (same ▸ List.mem_cons_self)

theorem Written.decodedPair {decode : Text → Text} {pair : Text × Text} (written : Written pair) :
    decodedPair decode (pairText pair) = (decode pair.1, decode pair.2) := by
  rw [S3.decodedPair, pairText, takeWhile_ne_append written.name.2,
    dropWhile_ne_append written.name.2]
  rfl

/-- Written pairs are read back in their order. -/
theorem decodedPairs_written {decode : Text → Text} {pairs : List (Text × Text)}
    (written : ∀ pair ∈ pairs, Written pair) :
    decodedPairs decode (pairs.foldl (fun wireQuery parameter =>
        (if wireQuery.isEmpty then wireQuery else wireQuery ++ ['&']) ++
          (parameter.1 ++ '=' :: parameter.2)) []) =
      pairs.map fun pair => (decode pair.1, decode pair.2) := by
  cases pairs with
  | nil => rfl
  | cons pair pairs =>
      have pieces : ((pair :: pairs).foldl (fun wireQuery parameter =>
          (if wireQuery.isEmpty then wireQuery else wireQuery ++ ['&']) ++
            (parameter.1 ++ '=' :: parameter.2)) []).splitOn '&' =
          (pair :: pairs).map pairText := by
        rw [List.forall_mem_cons] at written
        have more : pairText pair ≠ [] := written.1.isNamed.1
        have free : ∀ piece ∈ pairs.map pairText, '&' ∉ piece := by
          rw [List.forall_mem_map]
          exact fun other member => (written.2 other member).free
        have rest : (pairs.map pairText).flatMap (fun piece => '&' :: piece) =
            pairs.flatMap fun pair => '&' :: pairText pair := List.flatMap_map ..
        rw [List.foldl_cons]
        change (pairs.foldl _ (pairText pair)).splitOn '&' = _
        rw [foldl_pairText pairs more, ← rest, splitOn_pieces written.1.free free]
        rfl
      have named : ∀ piece ∈ (pair :: pairs).map pairText, piece ≠ [] ∧ ¬ ['='] <+: piece := by
        rw [List.forall_mem_map]
        exact fun other member => (written other member).isNamed
      rw [decodedPairs, namedPieces, pieces, List.filter_eq_self.mpr (by simpa using named),
        List.map_map]
      apply List.map_congr_left
      intro other member
      exact (written other member).decodedPair

/-! ## Order -/

/-- Sorting forgets the order. -/
theorem sortPairs_eq_of_perm {pairs others : List (Text × Text)} (perm : pairs.Perm others) :
    sortPairs pairs = sortPairs others :=
  insertionSort_eq_of_perm toLex perm fun _ _ _ _ same => toLex.injective same

theorem wireQuery_eq_of_perm (encode : Text → Text) {parameters others : List (Text × Text)}
    (perm : parameters.Perm others) : wireQuery encode parameters = wireQuery encode others := by
  rw [wireQuery, wireQuery]
  rw [sortPairs_eq_of_perm (perm.map _)]

/-! ## Round trip -/

section

variable {decode encode : Text → Text} (inverts : ∀ text, decode (encode text) = text)
  (separatorFree : ∀ text, '&' ∉ encode text ∧ '=' ∉ encode text) (decodesEmpty : decode [] = [])

include inverts separatorFree decodesEmpty

theorem decodedPairs_wireQuery {parameters : List (Text × Text)}
    (named : ∀ parameter ∈ parameters, parameter.1 ≠ []) :
    (decodedPairs decode (wireQuery encode parameters)).Perm parameters := by
  have written : ∀ pair ∈ sortPairs (parameters.map fun parameter =>
      (encode parameter.1, encode parameter.2)), Written pair := by
    intro pair member
    obtain ⟨parameter, isParameter, rfl⟩ :=
      List.mem_map.mp ((sortPairs_perm _).mem_iff.mp member)
    refine ⟨?_, separatorFree parameter.1, separatorFree parameter.2⟩
    intro empty
    have isName := inverts parameter.1
    rw [show encode parameter.1 = [] from empty, decodesEmpty] at isName
    exact named parameter isParameter isName.symm
  have decoded : (parameters.map fun parameter => (encode parameter.1, encode parameter.2)).map
      (fun pair => (decode pair.1, decode pair.2)) = parameters := by
    rw [List.map_map]
    refine (List.map_congr_left ?_).trans (List.map_id parameters)
    rintro ⟨name, value⟩ -
    simp [inverts]
  rw [wireQuery, decodedPairs_written written]
  have perm := (sortPairs_perm (parameters.map fun parameter =>
    (encode parameter.1, encode parameter.2))).map fun pair => (decode pair.1, decode pair.2)
  rw [decoded] at perm
  exact perm

/-- A written query is read back as the map of its parameters, it does not depend on
their order, and every query string is read as its pieces say. -/
theorem queryStrings_roundTrip :
    (∀ parameters : List (Text × Text), (parameters.map Prod.fst).Nodup →
      (∀ parameter ∈ parameters, parameter.1 ≠ []) →
        ∃ result, parseQueryParametersFrom decode (wireQuery encode parameters) 0 [] =
          .ok result ∧ result.Perm parameters) ∧
      (∀ parameters others : List (Text × Text), parameters.Perm others →
        wireQuery encode parameters = wireQuery encode others) ∧
      ∀ urlQueryParam : Text,
        (((decodedPairs decode urlQueryParam).map Prod.fst).Nodup ∧
            parseQueryParametersFrom decode urlQueryParam 0 [] =
              .ok (decodedPairs decode urlQueryParam)) ∨
          (¬ ((decodedPairs decode urlQueryParam).map Prod.fst).Nodup ∧
            ∃ error, parseQueryParametersFrom decode urlQueryParam 0 [] = .error error) := by
  refine ⟨?_, fun _ _ => wireQuery_eq_of_perm encode, parseQueryParameters_reads⟩
  intro parameters distinct named
  have perm := decodedPairs_wireQuery inverts separatorFree decodesEmpty named
  have names := (perm.map Prod.fst).nodup_iff.mpr distinct
  rcases @parseQueryParameters_reads decode (wireQuery encode parameters) with
    ⟨-, reads⟩ | ⟨twice, -⟩
  · exact ⟨_, reads, perm⟩
  · exact absurd names twice

end

theorem separatorFree_encode (text : Text) :
    '&' ∉ Percent.encode text ∧ '=' ∉ Percent.encode text := by
  have free : ∀ separator, Percent.isPlain separator = false → separator ≠ '%' →
      separator ∉ "0123456789ABCDEF".toList → separator ∉ Percent.encode text := by
    intro separator notPlain noPercent noDigit member
    obtain ⟨byte, -, inByte⟩ := List.mem_flatMap.mp member
    rw [Percent.encodeByte] at inByte
    split at inByte
    · rename_i plain
      rw [← List.mem_singleton.mp inByte, notPlain] at plain
      contradiction
    · rcases List.mem_cons.mp inByte with percent | inDigits
      · exact noPercent percent
      · rcases List.mem_cons.mp inDigits with rfl | isLast
        · exact noDigit (Percent.hexDigit_mem _)
        · obtain rfl := List.mem_singleton.mp isLast
          exact noDigit (Percent.hexDigit_mem _)
  exact ⟨free '&' (by decide) (by decide) (by decide), free '=' (by decide) (by decide) (by decide)⟩

/-- A value with separators, and a parameter without a value. -/
theorem queryStrings_roundTrip_separators :
    let parameters := [("versionId".toList, "a&b=c".toList), ("uploads".toList, [])]
    ∃ result, parseQueryParametersFrom Percent.decode (wireQuery Percent.encode parameters) 0 [] =
      .ok result ∧ result.Perm parameters := by
  intro parameters
  exact (queryStrings_roundTrip Percent.decode_encode separatorFree_encode rfl).1 parameters
    (by decide) (by decide)

end Httpfs.S3
