import Httpfs.S3.Url

/-!
# URLs built from parts

A routed URL is a scheme, `://`, a bucket, a slash and the rest.  Parsing such
a URL gives the parts back; only the rest is still searched, for the question
mark that starts a query string.
-/

namespace Httpfs.S3

open Text

/-! ## Schemes -/

/-- The scheme has none of the bytes a later search of the URL looks for. -/
def PlainScheme (scheme : Text) : Prop :=
  ∀ byte ∈ ":/?*[\\".toList, byte ∉ scheme

private theorem not_schemeByte : ∀ byte ∈ ":/?*[\\".toList, byte.isAlpha = false ∧
    (byte.isAlphanum || byte == '+' || byte == '-' || byte == '.') = false := by
  decide

theorem plainScheme_of_valid {scheme : Text} (valid : schemeSyntaxIsValid scheme = true) :
    PlainScheme scheme := by
  intro special isSpecial member
  cases scheme with
  | nil => contradiction
  | cons first rest =>
      rw [schemeSyntaxIsValid, Bool.and_eq_true, List.all_eq_true] at valid
      have excluded := not_schemeByte special isSpecial
      rcases List.mem_cons.mp member with rfl | later
      · rw [excluded.1] at valid
        exact absurd valid.1 (by simp)
      · exact absurd (valid.2 special later) (by rw [excluded.2]; simp)

theorem PlainScheme.lower {scheme : Text} (plain : PlainScheme scheme) :
    PlainScheme (lower scheme) := by
  intro byte special member
  have other := (not_schemeByte byte special).1
  exact plain byte special ((mem_lower_iff other).mp member)

theorem plainScheme_of_lower {scheme : Text} (plain : PlainScheme (lower scheme)) :
    PlainScheme scheme := by
  intro byte special member
  have other := (not_schemeByte byte special).1
  exact plain byte special ((mem_lower_iff other).mpr member)

/-- Every built-in provider prefix is a scheme and `://`. -/
theorem exists_scheme_of_providerMatch {providerMatch : S3ProviderMatch}
    (member : providerMatch ∈ providerMatches) :
    ∃ scheme, providerMatch.urlPrefix = scheme ++ "://".toList ∧
      schemeSyntaxIsValid scheme = true := by
  have all : ∀ providerMatch ∈ providerMatches,
      providerMatch.urlPrefix =
          providerMatch.urlPrefix.takeWhile (· ≠ ':') ++ "://".toList ∧
        schemeSyntaxIsValid (providerMatch.urlPrefix.takeWhile (· ≠ ':')) = true := by
    decide
  exact ⟨_, all _ member⟩

theorem exists_scheme_of_startsWith {url scheme : Text}
    (starts : startsWith (lower url) (scheme ++ "://".toList) = true)
    (valid : schemeSyntaxIsValid scheme = true) :
    ∃ original rest, url = original ++ "://".toList ++ rest ∧ PlainScheme original := by
  obtain ⟨rest, eq⟩ := startsWith_iff.mp starts
  obtain ⟨front, back, rfl, frontEq, -⟩ := List.map_eq_append_iff.mp eq.symm
  obtain ⟨original, separator, rfl, originalEq, separatorEq⟩ := List.map_eq_append_iff.mp frontEq
  have separatorIs : separator = "://".toList := eq_of_lower_eq (by decide) separatorEq
  refine ⟨original, back, by rw [separatorIs], ?_⟩
  apply plainScheme_of_lower
  rw [show lower original = scheme from originalEq]
  exact plainScheme_of_valid valid

/-- A URL that is routed to S3 has a scheme. -/
theorem exists_scheme_of_routed {url : Text} {reserved : Text → Bool} {aliases : List Text}
    (routed : (tryMatchUrlOrAlias url (getSchemeAliasPrefixes reserved aliases)).isSome = true) :
    ∃ scheme rest, url = scheme ++ "://".toList ++ rest ∧ PlainScheme scheme := by
  unfold tryMatchUrlOrAlias at routed
  cases builtin : tryMatchUrl url with
  | some providerMatch =>
      have starts := List.find?_some builtin
      obtain ⟨scheme, eq, valid⟩ :=
        exists_scheme_of_providerMatch (List.mem_of_find?_eq_some builtin)
      rw [eq] at starts
      exact exists_scheme_of_startsWith starts valid
  | none =>
      rw [builtin, Option.isSome_map, Option.isSome_iff_exists] at routed
      obtain ⟨aliasPrefix, found⟩ := routed
      obtain ⟨scheme, member, rfl⟩ := List.mem_map.mp (List.mem_of_find?_eq_some found)
      have kept := (List.mem_filter.mp member).2
      rw [Bool.and_eq_true] at kept
      exact exists_scheme_of_startsWith (List.find?_some found) kept.1

/-! ## The provider prefix -/

theorem startsWith_providerMatch_iff {scheme rest : Text} (plain : PlainScheme scheme)
    {providerMatch : S3ProviderMatch} (member : providerMatch ∈ providerMatches) :
    startsWith (lower (scheme ++ "://".toList ++ rest)) providerMatch.urlPrefix = true ↔
      providerMatch.urlPrefix = lower scheme ++ "://".toList := by
  obtain ⟨builtin, eq, valid⟩ := exists_scheme_of_providerMatch member
  have separator : lower "://".toList = "://".toList := by decide
  rw [eq, lower_append, lower_append, separator, startsWith_iff, List.append_assoc]
  constructor
  · intro starts
    have same := (append_cons_isPrefix_iff (plainScheme_of_valid valid ':' (by decide))
      (plain.lower ':' (by decide))).mp starts
    rw [same.1]
  · intro same
    rw [same, ← List.append_assoc]
    exact List.prefix_append _ _

/-- The prefix of a URL is its scheme in lower case. -/
theorem parsePrefix_append {scheme : Text} (plain : PlainScheme scheme) (rest : Text) :
    parsePrefix (scheme ++ "://".toList ++ rest) = pure (lower scheme ++ "://".toList) := by
  unfold parsePrefix
  cases builtin : tryMatchUrl (scheme ++ "://".toList ++ rest) with
  | some providerMatch =>
      have starts := List.find?_some builtin
      rw [startsWith_providerMatch_iff plain (List.mem_of_find?_eq_some builtin)] at starts
      simp only [starts]
  | none =>
      have found : find "://".toList (scheme ++ "://".toList ++ rest) = some scheme.length :=
        find_append (plain ':' (by decide))
      have separator : lower "://".toList = "://".toList := by decide
      simp only [found]
      have cut := substr_zero_append (scheme ++ "://".toList) rest
      rw [List.length_append] at cut
      simp only [show "://".toList.length = 3 from rfl] at cut
      simp only [cut, lower_append, separator]

/-! ## Parsing from parts -/

/-- Query string, rest without it, and the key, of what follows the bucket. -/
def splitRest (rest : Text) : Text × Text × Text :=
  match findFirstOf ['?'] rest with
  | none => ([], rest, rest)
  | some questionPos =>
      let queryParam := substrFrom rest (questionPos + 1)
      let trimmed := substr rest 0 questionPos
      (queryParam, trimmed, if queryParam.isEmpty then rest else trimmed)

/-- The parsed form of the URL whose authority is `front` and whose bucket is followed by `rest`. -/
def parsedParts (params : S3AuthParams) (urlPrefix bucket front rest : Text) : ParsedS3Url :=
  let (queryParam, trimmed, key) := splitRest rest
  let (host, path) := addressBucket params bucket
  { httpProto := if params.useSsl then "https://".toList else "http://".toList
    urlPrefix
    host
    bucket
    key
    path := path ++ '/' :: key
    queryParam
    trimmedS3Url := front ++ '/' :: trimmed }

theorem splitRest_of_not_mem {rest : Text} (free : '?' ∉ rest) :
    splitRest rest = ([], rest, rest) := by
  rw [splitRest, findFirstOf_singleton_eq_none free]

theorem splitRest_append {key queryParam : Text} (free : '?' ∉ key) :
    splitRest (key ++ '?' :: queryParam) =
      (queryParam, key, if queryParam.isEmpty then key ++ ['?'] else key) := by
  rw [splitRest, findFirstOf_singleton_append free]
  simp only [substrFrom_append_cons, substr_zero_append, Prod.mk.injEq, true_and]
  cases queryParam <;> rfl

/-- The question mark of a URL is looked for in what follows the bucket. -/
theorem splitQuery_append {front rest : Text} (free : '?' ∉ front) :
    splitQuery (front ++ '/' :: rest) front.length =
      ((splitRest rest).1, front ++ '/' :: (splitRest rest).2.1, '/' :: (splitRest rest).2.2) := by
  by_cases question : '?' ∈ rest
  · obtain ⟨key, queryParam, rfl, keyFree⟩ := List.eq_append_cons_of_mem question
    have absent : '?' ∉ front ++ '/' :: key := by
      simp [free, keyFree]
    have whole : front ++ '/' :: (key ++ '?' :: queryParam) =
        (front ++ '/' :: key) ++ '?' :: queryParam := by
      simp
    have tail := substrFrom_append_cons (front ++ '/' :: key) '?' queryParam
    have later : ¬ (front ++ '/' :: key).length < front.length := by
      simp
    have cut : substr ((front ++ '/' :: key) ++ '?' :: queryParam) front.length
        ((front ++ '/' :: key).length - front.length) = '/' :: key := by
      simp [substr, List.append_assoc]
    have keep : substrFrom ((front ++ '/' :: key) ++ '?' :: queryParam) front.length =
        '/' :: (key ++ '?' :: queryParam) := by
      simp [substrFrom, List.append_assoc]
    rw [splitRest_append keyFree, whole, splitQuery, findFirstOf_singleton_append absent]
    simp only [tail, substr_zero_append, if_neg later, cut, keep]
    cases queryParam <;> rfl
  · have absent : '?' ∉ front ++ '/' :: rest := by
      simp [free, question]
    rw [splitRest_of_not_mem question, splitQuery, findFirstOf_singleton_eq_none absent]
    simp

theorem splitQuery_trimmed (url : Text) (slashPos : Nat) :
    (splitQuery url slashPos).2.1 = url.takeWhile (· ≠ '?') := by
  by_cases question : '?' ∈ url
  · obtain ⟨front, back, rfl, free⟩ := List.eq_append_cons_of_mem question
    rw [takeWhile_ne_append free, splitQuery, findFirstOf_singleton_append free]
    simp only [substr_zero_append]
    split
    · rfl
    · split <;> rfl
  · rw [takeWhile_ne_of_not_mem question, splitQuery, findFirstOf_singleton_eq_none question]

private theorem find_authority {scheme : Text} (plain : PlainScheme scheme) (rest : Text) :
    ((find "//".toList (scheme ++ "://".toList ++ rest)).map (· + 2)).getD 1 =
      (scheme ++ "://".toList).length := by
  have free : '/' ∉ scheme ++ [':'] := by
    simp [plain '/' (by decide)]
  have found : find "//".toList (scheme ++ [':'] ++ "//".toList ++ rest) =
      some (scheme ++ [':']).length :=
    find_append free
  rw [List.append_assoc scheme [':'], show [':'] ++ "//".toList = "://".toList from rfl] at found
  rw [found]
  simp

/-- Parsing gives the parts back. -/
theorem parse_append {scheme bucket : Text} (plain : PlainScheme scheme)
    (noSlash : '/' ∉ bucket) (noQuestion : '?' ∉ bucket) (nonempty : bucket ≠ [])
    {params : S3AuthParams} (mode : params.s3UrlCompatibilityMode = false) (rest : Text) :
    parse (scheme ++ "://".toList ++ bucket ++ '/' :: rest) params =
      pure (parsedParts params (lower scheme ++ "://".toList) bucket
        (scheme ++ "://".toList ++ bucket) rest) := by
  have authority := find_authority plain (bucket ++ '/' :: rest)
  have urlPrefix := parsePrefix_append plain (bucket ++ '/' :: rest)
  rw [← List.append_assoc] at authority urlPrefix
  have slash : findFrom '/' (scheme ++ "://".toList ++ bucket ++ '/' :: rest)
      (scheme ++ "://".toList).length = some _ :=
    findFrom_append (scheme ++ "://".toList) noSlash
  have bucketIs : substr (scheme ++ "://".toList ++ bucket ++ '/' :: rest)
      (scheme ++ "://".toList).length bucket.length = bucket :=
    substr_append _ _ _
  have free : '?' ∉ scheme ++ "://".toList ++ bucket := by
    have separator : '?' ∉ "://".toList := by decide
    simp only [List.mem_append, not_or]
    exact ⟨⟨plain '?' (by decide), separator⟩, noQuestion⟩
  have query : splitQuery (scheme ++ "://".toList ++ bucket ++ '/' :: rest)
      (scheme ++ "://".toList ++ bucket).length = _ :=
    splitQuery_append free
  rw [List.length_append] at query
  rw [parse, urlPrefix]
  simp only [pure_bind, authority, slash, Nat.add_sub_cancel_left, bucketIs, mode, query,
    List.isEmpty_iff, nonempty, Bool.false_eq_true, if_false, List.cons_ne_nil]
  rfl

/-- A routed URL that parses has a bucket followed by a slash. -/
theorem exists_bucket_of_parse {scheme rest : Text} (plain : PlainScheme scheme)
    {params : S3AuthParams} {parsedUrl : ParsedS3Url}
    (parses : parse (scheme ++ "://".toList ++ rest) params = .ok parsedUrl) :
    ∃ bucket tail, rest = bucket ++ '/' :: tail ∧ '/' ∉ bucket ∧ bucket ≠ [] := by
  rw [parse, parsePrefix_append plain, pure_bind, find_authority plain] at parses
  cases slash : findFrom '/' (scheme ++ "://".toList ++ rest) (scheme ++ "://".toList).length with
  | none =>
      simp only [slash] at parses
      contradiction
  | some slashPos =>
      obtain ⟨bucket, tail, rfl, noSlash, rfl⟩ := exists_of_findFrom_eq_some slash
      refine ⟨bucket, tail, rfl, noSlash, ?_⟩
      rintro rfl
      have empty : substr (scheme ++ "://".toList ++ ([] ++ '/' :: tail))
          (scheme ++ "://".toList).length 0 = [] := by
        simp [substr]
      simp only [slash, List.length_nil, Nat.add_zero, Nat.sub_self, empty, List.isEmpty_nil,
        if_true] at parses
      contradiction

/-! ## What does not parse, and how long a key is -/

/-- A scheme that is not followed by two slashes is not read as a URL. -/
theorem parse_ne_ok_of_unrooted {scheme rest : Text} (plain : PlainScheme scheme)
    (free : ':' ∉ rest) (unrooted : ¬ "//".toList <+: rest) {params : S3AuthParams}
    {parsedUrl : ParsedS3Url} : parse (scheme ++ ':' :: rest) params ≠ .ok parsedUrl := by
  intro parses
  rcases bind_eq_ok_iff.mp parses with ⟨urlPrefix, found, -⟩
  have schemeFree : ':' ∉ scheme := plain ':' (by decide)
  rw [parsePrefix] at found
  split at found
  · rename_i providerMatch builtin
    rcases exists_scheme_of_providerMatch (List.mem_of_find?_eq_some builtin) with
      ⟨name, eq, valid⟩
    have starts := List.find?_some builtin
    have colon : lower (':' :: rest) = ':' :: lower rest := rfl
    rw [eq, lower_append, colon, startsWith_iff] at starts
    rcases (append_cons_isPrefix_iff (plainScheme_of_valid valid ':' (by decide))
      (plain.lower ':' (by decide))).mp starts with ⟨-, back, slashes⟩
    rcases List.map_eq_append_iff.mp slashes.symm with ⟨front, tail, rfl, isFront, -⟩
    exact unrooted (eq_of_lower_eq (by decide) isFront ▸ List.prefix_append front tail)
  · cases separator : find "://".toList (scheme ++ ':' :: rest) with
    | none =>
        rw [separator] at found
        contradiction
    | some position =>
        rcases exists_of_find_eq_some separator with ⟨front, back, eq, -⟩
        have once : ':' ∉ front := by
          intro member
          have count := congrArg (List.count ':') eq
          have positive := List.count_pos_iff.mpr member
          simp only [List.count_append, List.count_cons_self, List.count_eq_zero.mpr schemeFree,
            List.count_eq_zero.mpr free] at count
          have separatorCount : List.count ':' "://".toList = 1 := by decide
          omega
        rw [List.append_assoc] at eq
        rcases (append_cons_inj schemeFree once).mp eq with ⟨-, rfl⟩
        exact unrooted (List.prefix_append _ _)

/-- A key is shorter than its URL. -/
theorem parse_key_length {url : Text} {params : S3AuthParams} {parsedUrl : ParsedS3Url}
    (parses : parse url params = .ok parsedUrl) : parsedUrl.key.length < url.length := by
  rcases bind_eq_ok_iff.mp parses with ⟨urlPrefix, -, parses⟩
  dsimp only at parses
  split at parses
  · contradiction
  · rename_i slashPos slash
    split at parses
    · contradiction
    · have query : (splitQuery url slashPos).2.2.length ≤ url.length := by
        unfold splitQuery
        split
        · simp [substrFrom]
        · dsimp only
          split
          · simp [substrFrom]
          · have shorter : ∀ count, (substr url slashPos count).length ≤ url.length := by
              intro count
              simp only [substr, List.length_take, List.length_drop]
              omega
            split
            · simp [substrFrom]
            · exact shorter _
      have whole : (if params.s3UrlCompatibilityMode then ([], url, substrFrom url slashPos)
          else splitQuery url slashPos).2.2.length ≤ url.length := by
        split
        · simp [substrFrom]
        · exact query
      generalize (if params.s3UrlCompatibilityMode then ([], url, substrFrom url slashPos)
          else splitQuery url slashPos) = parts at parses whole
      rcases parts with ⟨queryParam, trimmedS3Url, key⟩
      dsimp only at parses whole
      split at parses
      · contradiction
      · rename_i nonempty
        cases parses
        have positive : 0 < key.length := List.length_pos_iff.mpr (by simpa using nonempty)
        change (key.drop 1).length < url.length
        rw [List.length_drop]
        omega

end Httpfs.S3
