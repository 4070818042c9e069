import Httpfs.S3.UrlParts

/-!
# The fields of a parsed URL

The fields are cut by searches for `//`, `/` and `?` that do not know of each
other.  They fit together exactly when the first `?` stands behind the slash
that ends the bucket and something follows it, and the first `//` is the one of
the first `://`.  The last holds of every URL that routing sends here.

A `?` with nothing behind it stays in the key but not in the trimmed URL; a `?`
before the slash stays in the bucket or in the scheme.
-/

namespace Httpfs.S3

open Text

/-! ## The start of the authority -/

/-- Where the search for the slash behind the bucket begins. -/
def authorityStart (url : Text) : Nat :=
  ((find "//".toList url).map (· + 2)).getD 1

/-- The first `//` is the one of the first `://`. -/
def RootedScheme (url : Text) : Prop :=
  find "//".toList url = (find "://".toList url).map (· + 1)

theorem find_separator {scheme : Text} (plain : PlainScheme scheme) (rest : Text) :
    find "://".toList (scheme ++ "://".toList ++ rest) = some scheme.length ∧
      find "//".toList (scheme ++ "://".toList ++ rest) = some (scheme.length + 1) := by
  have free : '/' ∉ scheme ++ [':'] := by
    simp [plain '/' (by decide)]
  have slashes : find "//".toList (scheme ++ [':'] ++ "//".toList ++ rest) =
      some (scheme ++ [':']).length :=
    find_append free
  rw [List.append_assoc scheme [':'], show [':'] ++ "//".toList = "://".toList from rfl] at slashes
  refine ⟨find_append (plain ':' (by decide)), slashes.trans ?_⟩
  simp

/-- A routed URL is rooted at its scheme. -/
theorem rootedScheme_of_plain {scheme : Text} (plain : PlainScheme scheme) (rest : Text) :
    RootedScheme (scheme ++ "://".toList ++ rest) := by
  rcases find_separator plain rest with ⟨separator, slashes⟩
  rw [RootedScheme, separator, slashes]
  rfl

/-- The prefix is the beginning of the URL in lower case.  The authority begins
behind it or earlier. -/
theorem parsePrefix_length {url urlPrefix : Text} (found : parsePrefix url = .ok urlPrefix) :
    lower (url.take urlPrefix.length) = lower urlPrefix ∧
      authorityStart url ≤ urlPrefix.length ∧
      (authorityStart url = urlPrefix.length ↔ RootedScheme url) := by
  unfold parsePrefix at found
  split at found
  · rename_i providerMatch builtin
    cases found
    rcases exists_scheme_of_providerMatch (List.mem_of_find?_eq_some builtin) with
      ⟨scheme, eq, valid⟩
    have starts := List.find?_some builtin
    rw [eq] at starts ⊢
    rcases startsWith_iff.mp starts with ⟨back, whole⟩
    rcases List.map_eq_append_iff.mp whole.symm with ⟨front, tail, rfl, frontEq, -⟩
    rcases List.map_eq_append_iff.mp frontEq with ⟨original, separator, rfl, originalEq, isSeparator⟩
    have same : separator = "://".toList := eq_of_lower_eq (by decide) isSeparator
    subst same
    have plain : PlainScheme original := by
      apply plainScheme_of_lower
      rw [show lower original = scheme from originalEq]
      exact plainScheme_of_valid valid
    have sameLength : original.length = scheme.length := by
      rw [← originalEq, List.length_map]
    have start : authorityStart (original ++ "://".toList ++ tail) =
        (scheme ++ "://".toList).length := by
      rw [authorityStart, (find_separator plain tail).2, List.length_append, ← sameLength]
      rfl
    have cut : (original ++ "://".toList ++ tail).take (scheme ++ "://".toList).length =
        original ++ "://".toList := by
      rw [List.length_append, ← sameLength, ← List.length_append, List.take_left]
    refine ⟨?_, start.le, fun _ => rootedScheme_of_plain plain tail, fun _ => start⟩
    rw [cut, lower_append, lower_append, ← show lower original = scheme from originalEq,
      lower_lower]
  · cases separator : find "://".toList url with
    | none =>
        rw [separator] at found
        contradiction
    | some schemeEnd =>
        rw [separator] at found
        cases found
        rcases exists_of_find_eq_some separator with ⟨front, back, rfl, rfl⟩
        have cut : substr (front ++ "://".toList ++ back) 0 (front.length + 3) =
            front ++ "://".toList := by
          have here := substr_zero_append (front ++ "://".toList) back
          rwa [List.length_append] at here
        have length : (lower (front ++ "://".toList)).length = front.length + 3 := by
          simp [lower]
        have inside : front ++ "://".toList ++ back =
            (front ++ [':']) ++ ("//".toList ++ back) := by
          simp
        rcases exists_find_le "//".toList (front ++ [':']) back with ⟨position, slashes, bound⟩
        rw [← inside] at slashes
        have start : authorityStart (front ++ "://".toList ++ back) = position + 2 := by
          rw [authorityStart, slashes]
          rfl
        rw [List.length_append, List.length_singleton] at bound
        rw [cut, length, start, RootedScheme, slashes, separator]
        refine ⟨?_, by omega, ?_⟩
        · rw [lower_lower, show front.length + 3 = (front ++ "://".toList).length by simp,
            List.take_left]
        · rw [Option.map_some, Option.some.injEq]
          omega

/-! ## The query string -/

/-- A question mark before the slash ends the trimmed URL and leaves the key as
it is. -/
theorem splitQuery_early {front rest query : Text} (free : '?' ∉ front) (middle : Text)
    (isQuery : query = middle ++ '/' :: rest) :
    splitQuery (front ++ '?' :: query) (front.length + 1 + middle.length) =
      (query, front, '/' :: rest) := by
  subst isQuery
  have whole : front ++ '?' :: (middle ++ '/' :: rest) =
      (front ++ '?' :: middle) ++ '/' :: rest := by
    simp
  have tail : substrFrom (front ++ '?' :: (middle ++ '/' :: rest))
      (front.length + 1 + middle.length) = '/' :: rest := by
    have cut := substrFrom_append (front ++ '?' :: middle) ('/' :: rest)
    rw [List.length_append, List.length_cons] at cut
    rw [whole, show front.length + 1 + middle.length = front.length + (middle.length + 1) by omega]
    exact cut
  rw [splitQuery, findFirstOf_singleton_append free]
  simp only [substrFrom_append_cons, substr_zero_append, tail]
  rw [if_neg (by simp), if_pos (by omega)]

/-- The key keeps its leading slash. -/
theorem exists_key_of_splitQuery (front rest : Text) :
    ∃ key, (splitQuery (front ++ '/' :: rest) front.length).2.2 = '/' :: key := by
  by_cases question : '?' ∈ front
  · rcases List.eq_append_cons_of_mem question with ⟨before, middle, rfl, free⟩
    have early := splitQuery_early free middle (rfl : middle ++ '/' :: rest = _)
    refine ⟨rest, ?_⟩
    rw [List.append_assoc, List.cons_append, List.length_append, List.length_cons,
      show before.length + (middle.length + 1) = before.length + 1 + middle.length by omega, early]
  · exact ⟨_, by rw [splitQuery_append question]⟩

/-! ## Fields that always fit -/

/-- `S3Url::Parse` addresses the bucket by a path segment. -/
def usesPathStyle (params : S3AuthParams) (bucket : Text) : Prop :=
  params.urlStyle = "path".toList ∨
    ((params.urlStyle = [] ∨ params.urlStyle = "vhost".toList ∨
      params.urlStyle = "virtual".toList) ∧ params.useSsl = true ∧ '.' ∈ bucket)

instance (params : S3AuthParams) (bucket : Text) : Decidable (usesPathStyle params bucket) :=
  inferInstanceAs (Decidable (_ ∨ _))

theorem findFrom_zero_isSome_iff {byte : Char} {text : Text} :
    (findFrom byte text 0).isSome = true ↔ byte ∈ text := by
  simp [findFrom]

theorem addressBucket_path (params : S3AuthParams) (bucket : Text) :
    (addressBucket params bucket).2 = (splitEndpoint params.endpoint).2 ++
      (if usesPathStyle params bucket then '/' :: bucket else []) := by
  unfold addressBucket
  dsimp only
  by_cases style : usesPathStyle params bucket
  · have here := style
    simp only [usesPathStyle] at here
    rw [if_pos style, if_pos]
    · simp
    · simp only [Bool.or_eq_true, Bool.and_eq_true, beq_iff_eq, List.isEmpty_iff,
        findFrom_zero_isSome_iff]
      tauto
  · have here := style
    simp only [usesPathStyle] at here
    rw [if_neg style, if_neg, List.append_nil]
    · split <;> rfl
    · simp only [Bool.or_eq_true, Bool.and_eq_true, beq_iff_eq, List.isEmpty_iff,
        findFrom_zero_isSome_iff]
      tauto

/-- How a parsed URL is cut: at the start of the authority, at the slash behind
the bucket, and at the first question mark wherever it is. -/
theorem parse_cut {url : Text} {params : S3AuthParams} {parsedUrl : ParsedS3Url}
    (mode : params.s3UrlCompatibilityMode = false) (parses : parse url params = .ok parsedUrl) :
    ∃ front rest, parsePrefix url = .ok parsedUrl.urlPrefix ∧
      url = front ++ parsedUrl.bucket ++ '/' :: rest ∧ front.length = authorityStart url ∧
      '/' ∉ parsedUrl.bucket ∧ parsedUrl.bucket ≠ [] ∧
      splitQuery url (front ++ parsedUrl.bucket).length =
        (parsedUrl.queryParam, parsedUrl.trimmedS3Url, '/' :: parsedUrl.key) ∧
      parsedUrl.path = (addressBucket params parsedUrl.bucket).2 ++ '/' :: parsedUrl.key := by
  rcases bind_eq_ok_iff.mp parses with ⟨urlPrefix, isPrefix, parses⟩
  dsimp only at parses
  have start : ((find "//".toList url).map (· + 2)).getD 1 = authorityStart url := rfl
  rw [start] at parses
  cases slash : findFrom '/' url (authorityStart url) with
  | none =>
      rw [slash] at parses
      contradiction
  | some slashPos =>
      rcases exists_cut_of_findFrom slash with
        ⟨front, bucket, rest, whole, frontLength, noSlash, position, bucketIs⟩
      have slashLength : slashPos = (front ++ bucket).length := by
        rw [position, List.length_append, frontLength]
      rcases exists_key_of_splitQuery (front ++ bucket) rest with ⟨key, keyEq⟩
      rw [← whole, ← slashLength] at keyEq
      rw [slash] at parses
      simp only [bucketIs, mode, Bool.false_eq_true, if_false] at parses
      split at parses
      · contradiction
      · rename_i nonempty
        rcases query : splitQuery url slashPos with ⟨queryParam, trimmedS3Url, slashKey⟩
        rw [query] at keyEq parses
        dsimp only at keyEq parses
        subst keyEq
        cases parses
        refine ⟨front, rest, isPrefix, whole, frontLength, noSlash, ?_, ?_, rfl⟩
        · simpa using nonempty
        · rw [← slashLength, query]
          rfl

/-! ## Fields that fit together -/

/-- The fields of a parsed URL describe one cut of it. -/
structure Consistent (url : Text) (params : S3AuthParams) (parsedUrl : ParsedS3Url) : Prop where
  cut : ∃ scheme tail,
    url = scheme ++ parsedUrl.bucket ++ '/' :: parsedUrl.key ++ tail ∧
      (tail = [] ∨ tail = '?' :: parsedUrl.queryParam) ∧
      lower scheme = lower parsedUrl.urlPrefix ∧
      parsedUrl.trimmedS3Url = scheme ++ parsedUrl.bucket ++ '/' :: parsedUrl.key
  bucket_nonempty : parsedUrl.bucket ≠ []
  bucket_slash : '/' ∉ parsedUrl.bucket
  bucket_question : '?' ∉ parsedUrl.bucket
  key_question : '?' ∉ parsedUrl.key
  trimmed : parsedUrl.trimmedS3Url = url.takeWhile (· ≠ '?')
  display : getDisplayUrl url params = parsedUrl.trimmedS3Url
  path : parsedUrl.path = (splitEndpoint params.endpoint).2 ++
    (if usesPathStyle params parsedUrl.bucket then '/' :: parsedUrl.bucket else []) ++
      '/' :: parsedUrl.key

/-- The first `?` comes after the slash that ends the bucket and before some
query string, and the first `//` is the one of the first `://`. -/
def Regular (url : Text) : Prop :=
  RootedScheme url ∧ ∀ questionPos, findFirstOf ['?'] url = some questionPos →
    (∃ slashPos, findFrom '/' url (authorityStart url) = some slashPos ∧
      slashPos < questionPos) ∧ questionPos + 1 < url.length

theorem getDisplayUrl_trimmed {url : Text} {params : S3AuthParams}
    (mode : params.s3UrlCompatibilityMode = false) :
    getDisplayUrl url params = url.takeWhile (· ≠ '?') := by
  rw [getDisplayUrl, mode, if_neg Bool.false_ne_true]
  by_cases question : '?' ∈ url
  · rcases List.eq_append_cons_of_mem question with ⟨front, back, rfl, free⟩
    have found : findFrom '?' ([] ++ front ++ '?' :: back) 0 = some (0 + front.length) :=
      findFrom_append [] free
    rw [List.nil_append, Nat.zero_add] at found
    rw [found, takeWhile_ne_append free]
    exact substr_zero_append front ('?' :: back)
  · have missing : findFrom '?' url 0 = none := by
      rw [← Option.not_isSome_iff_eq_none, findFrom_zero_isSome_iff]
      exact question
    rw [missing, takeWhile_ne_of_not_mem question]

/-- A URL cut before its first `?` fits when the authority begins behind the
prefix. -/
theorem consistent_iff_rooted {url front tail : Text} {params : S3AuthParams}
    {parsedUrl : ParsedS3Url} (mode : params.s3UrlCompatibilityMode = false)
    (parses : parse url params = .ok parsedUrl)
    (whole : url = front ++ parsedUrl.bucket ++ '/' :: parsedUrl.key ++ tail)
    (start : front.length = authorityStart url)
    (query : tail = [] ∨ tail = '?' :: parsedUrl.queryParam)
    (free : '?' ∉ front ++ parsedUrl.bucket ++ '/' :: parsedUrl.key)
    (trimmed : parsedUrl.trimmedS3Url = front ++ parsedUrl.bucket ++ '/' :: parsedUrl.key) :
    Consistent url params parsedUrl ↔ RootedScheme url := by
  rcases parse_cut mode parses with ⟨_, _, isPrefix, -, -, noSlash, nonempty, -, path⟩
  rcases parsePrefix_length isPrefix with ⟨sameLetters, -, rooted⟩
  constructor
  · intro consistent
    rcases consistent.cut with ⟨scheme, _, -, -, isScheme, eq⟩
    rw [trimmed] at eq
    have same : front = scheme :=
      List.append_cancel_right (List.append_cancel_right eq)
    have lengths := congrArg List.length isScheme
    rw [lower, lower, List.length_map, List.length_map] at lengths
    exact rooted.mp (by rw [← start, same, lengths])
  · intro regular
    have beforeQuestion : url.takeWhile (· ≠ '?') =
        front ++ parsedUrl.bucket ++ '/' :: parsedUrl.key := by
      rw [whole]
      rcases query with rfl | rfl
      · rw [List.append_nil, takeWhile_ne_of_not_mem free]
      · rw [takeWhile_ne_append free]
    have isScheme : lower front = lower parsedUrl.urlPrefix := by
      rw [← sameLetters, ← rooted.mpr regular, ← start]
      conv_rhs => rw [whole]
      rw [List.append_assoc, List.append_assoc, List.take_left]
    exact {
      cut := ⟨front, tail, whole, query, isScheme, trimmed⟩
      bucket_nonempty := nonempty
      bucket_slash := noSlash
      bucket_question := fun question => free (by simp [question])
      key_question := fun question => free (by simp [question])
      trimmed := trimmed.trans beforeQuestion.symm
      display := (getDisplayUrl_trimmed mode).trans (beforeQuestion.trans trimmed.symm)
      path := by rw [path, addressBucket_path] }

/-- Behind a question mark before the slash nothing fits: the bucket holds it,
or the trimmed URL ends inside the scheme. -/
theorem not_consistent_of_early {url front rest : Text} {params : S3AuthParams}
    {parsedUrl : ParsedS3Url}
    (isPrefix : parsePrefix url = .ok parsedUrl.urlPrefix)
    (whole : url = front ++ parsedUrl.bucket ++ '/' :: rest)
    (start : front.length = authorityStart url) (early : '?' ∈ front ++ parsedUrl.bucket) :
    ¬ Consistent url params parsedUrl := by
  intro consistent
  have inFront : '?' ∈ front := by
    rcases List.mem_append.mp early with inFront | inBucket
    · exact inFront
    · exact absurd inBucket consistent.bucket_question
  rcases List.eq_append_cons_of_mem inFront with ⟨before, middle, rfl, free⟩
  have trimmed : parsedUrl.trimmedS3Url = before := by
    rw [consistent.trimmed, whole, List.append_assoc, List.append_assoc, List.cons_append,
      takeWhile_ne_append free]
  rcases consistent.cut with ⟨scheme, _, -, -, isScheme, eq⟩
  have lengths := congrArg List.length isScheme
  have within := congrArg List.length (trimmed.symm.trans eq)
  have bound := (parsePrefix_length isPrefix).2.1
  rw [lower, lower, List.length_map, List.length_map] at lengths
  rw [← start] at bound
  simp only [List.length_append, List.length_cons] at within bound
  omega

/-- The fields of an accepted URL fit together exactly when it is regular. -/
theorem parse_consistent_iff {url : Text} {params : S3AuthParams} {parsedUrl : ParsedS3Url}
    (mode : params.s3UrlCompatibilityMode = false) (parses : parse url params = .ok parsedUrl) :
    Consistent url params parsedUrl ↔ Regular url := by
  rcases parse_cut mode parses with
    ⟨front, rest, isPrefix, whole, start, noSlash, -, query, -⟩
  have slash : findFrom '/' url (authorityStart url) =
      some (front ++ parsedUrl.bucket).length := by
    rw [← start, whole, findFrom_append front noSlash, List.length_append]
  by_cases early : '?' ∈ front ++ parsedUrl.bucket
  · refine iff_of_false (not_consistent_of_early isPrefix whole start early) ?_
    rintro ⟨-, regular⟩
    rcases List.eq_append_cons_of_mem early with ⟨before, middle, eq, free⟩
    have question : findFirstOf ['?'] url = some before.length := by
      rw [whole, eq, List.append_assoc, List.cons_append, findFirstOf_singleton_append free]
    rcases (regular _ question).1 with ⟨slashPos, here, later⟩
    have lengths := congrArg List.length eq
    rw [slash, Option.some.injEq] at here
    simp only [List.length_append, List.length_cons] at lengths here
    omega
  · rw [whole, splitQuery_append early] at query
    by_cases question : '?' ∈ rest
    · rcases List.eq_append_cons_of_mem question with ⟨key, queryParam, rfl, free⟩
      have absent : '?' ∉ front ++ parsedUrl.bucket ++ '/' :: key := by
        simp only [List.mem_append, List.mem_cons] at early free ⊢
        tauto
      have found : findFirstOf ['?'] url =
          some (front ++ parsedUrl.bucket ++ '/' :: key).length := by
        rw [whole, ← List.cons_append, ← List.append_assoc, findFirstOf_singleton_append absent]
      rw [splitRest_append free] at query
      cases queryParam with
      | nil =>
          have isKey : key ++ ['?'] = parsedUrl.key := by
            simpa using congrArg (·.2.2) query
          refine iff_of_false (fun consistent => consistent.key_question ?_) ?_
          · rw [← isKey]
            simp
          · rintro ⟨-, regular⟩
            have later := (regular _ found).2
            conv_rhs at later => rw [whole]
            simp only [List.length_append, List.length_cons, List.length_nil] at later
            omega
      | cons byte queryParam =>
          simp only [List.isEmpty_cons, Bool.false_eq_true, if_false, Prod.mk.injEq,
            List.cons.injEq, true_and] at query
          rcases query with ⟨isQuery, isTrimmed, rfl⟩
          have fits := consistent_iff_rooted mode parses
            (show url = front ++ parsedUrl.bucket ++ '/' :: parsedUrl.key ++
              '?' :: byte :: queryParam by simpa using whole)
            start (.inr (by rw [isQuery])) absent isTrimmed.symm
          rw [fits, Regular, and_iff_left]
          rintro questionPos isPosition
          rw [found, Option.some.injEq] at isPosition
          subst isPosition
          refine ⟨⟨_, slash, by simp⟩, ?_⟩
          conv_rhs => rw [whole]
          simp only [List.length_append, List.length_cons]
          omega
    · have absent : '?' ∉ front ++ parsedUrl.bucket ++ '/' :: rest := by
        simp only [List.mem_append, List.mem_cons] at early question ⊢
        tauto
      rw [splitRest_of_not_mem question] at query
      simp only [Prod.mk.injEq, List.cons.injEq, true_and] at query
      rcases query with ⟨-, isTrimmed, rfl⟩
      have fits := consistent_iff_rooted mode parses
        (show url = front ++ parsedUrl.bucket ++ '/' :: parsedUrl.key ++ [] by simpa using whole)
        start (.inl rfl) absent isTrimmed.symm
      rw [fits, Regular, and_iff_left]
      intro questionPos isPosition
      rw [whole, findFirstOf_singleton_eq_none absent] at isPosition
      cases isPosition

theorem parse_consistent_iff_query :
    ∃ parsedUrl, parse "s3://b/k?region=x".toList {} = .ok parsedUrl ∧
      Consistent "s3://b/k?region=x".toList {} parsedUrl := by
  refine ⟨_, rfl, (parse_consistent_iff rfl rfl).mpr ⟨rfl, ?_⟩⟩
  intro questionPos found
  have here : findFirstOf ['?'] "s3://b/k?region=x".toList = some 8 := rfl
  rw [here, Option.some.injEq] at found
  subst found
  exact ⟨⟨6, rfl, by decide⟩, by decide⟩

/-- The key of `s3://b/k?` keeps the question mark that its trimmed URL drops;
the bucket of `s3://b?x/k` is `b?x`, and its trimmed URL has no slash. -/
theorem parse_inconsistent :
    (∃ parsedUrl, parse "s3://b/k?".toList {} = .ok parsedUrl ∧
      parsedUrl.key = "k?".toList ∧ parsedUrl.trimmedS3Url = "s3://b/k".toList ∧
      ¬ Consistent "s3://b/k?".toList {} parsedUrl) ∧
    ∃ parsedUrl, parse "s3://b?x/k".toList {} = .ok parsedUrl ∧
      parsedUrl.bucket = "b?x".toList ∧ parsedUrl.trimmedS3Url = "s3://b".toList ∧
      ¬ Consistent "s3://b?x/k".toList {} parsedUrl := by
  constructor
  · refine ⟨_, rfl, rfl, rfl, fun consistent => ?_⟩
    exact consistent.key_question (by decide)
  · refine ⟨_, rfl, rfl, rfl, fun consistent => ?_⟩
    exact consistent.bucket_question (by decide)

end Httpfs.S3
