import Httpfs.S3.Request.Verified

/-!
# The order of headers and parameters

Configured headers come from an unordered map, and so do the headers that are signed.
Both are sorted: the former before they are checked, so that the spellings of a name
stand together, the latter before they are signed.  What is sent depends neither on
the order of the maps nor on that of the query parameters.
-/

namespace Httpfs.S3

open Http Text

/-! ## Configured headers -/

/-- Two configured headers differ only by case, or one is a header of HTTPFS. -/
def Clashing (extraHeaders : ExtraHeaders) : Prop :=
  (∃ header ∈ extraHeaders.entries, ∃ other ∈ extraHeaders.entries,
      header.1 ≠ other.1 ∧ lower header.1 = lower other.1) ∨
    ∃ header ∈ extraHeaders.entries, ∃ owned ∈ HTTPFSOwnedS3Headers.headers,
      lower header.1 = lower owned

theorem sortHeaders_perm (headers : List (Text × Text)) : (sortHeaders headers).Perm headers :=
  List.perm_insertionSort _ headers

theorem sortHeaders_eq_of_perm {headers others : List (Text × Text)}
    (distinct : (headers.map Prod.fst).Nodup) (perm : headers.Perm others) :
    sortHeaders headers = sortHeaders others := by
  apply insertionSort_eq_of_perm headerKey perm
  intro left isLeft right isRight same
  have names : left.1 = right.1 := congrArg Prod.snd (toLex.injective same)
  exact List.inj_on_of_nodup_map distinct isLeft isRight names

/-- The spellings of a name stand together. -/
theorem sortHeaders_lower (headers : List (Text × Text)) :
    (sortHeaders headers).Pairwise fun left right => lower left.1 ≤ lower right.1 := by
  apply (pairwise_insertionSort_key headerKey headers).imp
  intro left right ordered
  rcases Prod.Lex.toLex_le_toLex.mp ordered with less | ⟨same, -⟩
  · exact le_of_lt less
  · exact le_of_eq same

/-- Sorted headers are accepted if no name comes twice and none is of HTTPFS. -/
theorem checkConfiguredHeaders_eq_ok_iff {headers : List (Text × Text)} (previous : Option Text)
    (sorted : headers.Pairwise fun left right => lower left.1 ≤ lower right.1)
    (behind : ∀ name ∈ previous, ∀ header ∈ headers, lower name ≤ lower header.1) :
    checkConfiguredHeaders previous headers = .ok () ↔
      (∀ name ∈ previous, ∀ header ∈ headers, lower name ≠ lower header.1) ∧
        (headers.Pairwise fun left right => lower left.1 ≠ lower right.1) ∧
        ∀ header ∈ headers, HTTPFSOwnedS3Headers.contains header.1 = false := by
  induction headers generalizing previous with
  | nil =>
      refine ⟨fun _ => ⟨?_, List.Pairwise.nil, ?_⟩, fun _ => rfl⟩
      · exact fun _ _ _ member => absurd member List.not_mem_nil
      · exact fun _ member => absurd member List.not_mem_nil
  | cons header rest inductionHypothesis =>
      have next := inductionHypothesis (some header.1) (List.pairwise_cons.mp sorted).2
        fun name isName => Option.some.inj isName ▸ (List.pairwise_cons.mp sorted).1
      have isNext : (∀ name ∈ some header.1, ∀ other ∈ rest, lower name ≠ lower other.1) ↔
          ∀ other ∈ rest, lower header.1 ≠ lower other.1 :=
        ⟨fun apart => apart header.1 rfl, fun apart name isName => Option.some.inj isName ▸ apart⟩
      rw [isNext] at next
      rw [checkConfiguredHeaders]
      split
      · rename_i name isName
        obtain ⟨isPrevious, same⟩ := Option.filter_eq_some_iff.mp isName
        constructor
        · intro impossible
          contradiction
        · rintro ⟨apart, -⟩
          exact absurd (by simpa using same) (apart name isPrevious header List.mem_cons_self)
      · rename_i unlike
        have different : ∀ name ∈ previous, lower name ≠ lower header.1 := by
          intro name isName same
          have filtered := Option.filter_eq_none_iff.mp unlike name isName
          exact filtered (decide_eq_true same)
        split
        · rename_i owned
          constructor
          · intro impossible
            contradiction
          · rintro ⟨-, -, notOwned⟩
            rw [notOwned header List.mem_cons_self] at owned
            contradiction
        · rename_i notOwned
          rw [next, List.pairwise_cons, List.forall_mem_cons]
          constructor
          · rintro ⟨apart, distinct, others⟩
            refine ⟨?_, ⟨apart, distinct⟩, Bool.eq_false_iff.mpr notOwned, others⟩
            intro name isName
            rw [List.forall_mem_cons]
            refine ⟨different name isName, fun other member same => ?_⟩
            -- A name between two spellings of another is a spelling of it.
            have below := behind name isName header List.mem_cons_self
            have above := (List.pairwise_cons.mp sorted).1 other member
            rw [← same] at above
            exact different name isName (le_antisymm below above)
          · rintro ⟨-, ⟨apart, distinct⟩, -, others⟩
            exact ⟨apart, distinct, others⟩

theorem contains_eq_false_iff {name : Text} : HTTPFSOwnedS3Headers.contains name = false ↔
    ∀ owned ∈ HTTPFSOwnedS3Headers.headers, lower name ≠ lower owned := by
  rw [← Bool.not_eq_true, HTTPFSOwnedS3Headers.contains_iff]
  constructor
  · intro none owned member same
    exact none ⟨owned, member, same.symm⟩
  · rintro none ⟨owned, member, same⟩
    exact none owned member same.symm

/-- Without a clash every name is there once. -/
theorem not_clashing_iff {extraHeaders : ExtraHeaders} : ¬ Clashing extraHeaders ↔
    (extraHeaders.entries.map fun header => lower header.1).Nodup ∧
      ∀ header ∈ extraHeaders.entries, HTTPFSOwnedS3Headers.contains header.1 = false := by
  have once : (¬ ∃ header ∈ extraHeaders.entries, ∃ other ∈ extraHeaders.entries,
      header.1 ≠ other.1 ∧ lower header.1 = lower other.1) ↔
        (extraHeaders.entries.map fun header => lower header.1).Nodup := by
    constructor
    · intro none
      have entries : extraHeaders.entries.Nodup := List.Nodup.of_map _ extraHeaders.distinct
      apply entries.map_on
      intro header member other isOther same
      by_contra different
      have names : header.1 ≠ other.1 := fun sameName =>
        different (List.inj_on_of_nodup_map extraHeaders.distinct member isOther sameName)
      exact none ⟨header, member, other, isOther, names, same⟩
    · rintro distinct ⟨header, member, other, isOther, different, same⟩
      exact different (congrArg Prod.fst (List.inj_on_of_nodup_map distinct member isOther same))
  rw [Clashing, not_or, once]
  apply and_congr_right'
  constructor
  · intro none header member
    exact contains_eq_false_iff.mpr fun owned isOwned same =>
      none ⟨header, member, owned, isOwned, same⟩
  · rintro none ⟨header, member, owned, isOwned, same⟩
    exact contains_eq_false_iff.mp (none header member) owned isOwned same

theorem checkConfiguredHeaders_sortHeaders (extraHeaders : ExtraHeaders) :
    checkConfiguredHeaders none (sortHeaders extraHeaders.entries) = .ok () ↔
      ¬ Clashing extraHeaders := by
  have perm := sortHeaders_perm extraHeaders.entries
  have names : (sortHeaders extraHeaders.entries).Pairwise
      (fun left right => lower left.1 ≠ lower right.1) ↔
        (extraHeaders.entries.map fun header => lower header.1).Nodup := by
    rw [← (perm.map fun header => lower header.1).nodup_iff, List.Nodup, List.pairwise_map]
  rw [checkConfiguredHeaders_eq_ok_iff none (sortHeaders_lower _) nofun, not_clashing_iff, names]
  constructor
  · rintro ⟨-, distinct, notOwned⟩
    exact ⟨distinct, fun header member => notOwned header (perm.mem_iff.mpr member)⟩
  · rintro ⟨distinct, notOwned⟩
    exact ⟨nofun, distinct, fun header member => notOwned header (perm.mem_iff.mp member)⟩

/-! ## What is set -/

/-- New names come behind what is there. -/
theorem entries_setHeaders {headers : HTTPHeaders} {values : List (Text × Text)}
    (fresh : ∀ value ∈ values, lower value.1 ∉ headers.names)
    (distinct : (values.map fun value => lower value.1).Nodup) :
    (setHeaders headers values).entries = headers.entries ++ values := by
  induction values generalizing headers with
  | nil => exact (List.append_nil _).symm
  | cons value values inductionHypothesis =>
      rw [List.forall_mem_cons] at fresh
      rw [List.map_cons, List.nodup_cons] at distinct
      have later : ∀ other ∈ values, lower other.1 ∉ (headers.set value.1 value.2).names := by
        intro other member
        rw [HTTPHeaders.names_set, HTTPHeaders.mem_names_insert]
        rintro (same | before)
        · exact distinct.1 (List.mem_map.mpr ⟨other, member, same⟩)
        · exact fresh.2 other member before
      have rest := inductionHypothesis later distinct.2
      rw [HTTPHeaders.entries_set fresh.1, List.append_assoc] at rest
      exact rest

theorem mem_setHeaders_of_apart {headers : HTTPHeaders} {values : List (Text × Text)}
    {header : Text × Text} (member : header ∈ headers.entries)
    (apart : ∀ value ∈ values, lower header.1 ≠ lower value.1) :
    header ∈ (setHeaders headers values).entries := by
  induction values generalizing headers with
  | nil => exact member
  | cons value values inductionHypothesis =>
      rw [List.forall_mem_cons] at apart
      exact inductionHypothesis (HTTPHeaders.mem_set_of_ne member apart.1 value.2) apart.2

/-- The configured headers are refused exactly if they clash; else all of them are there. -/
theorem createConfiguredS3Headers_cases (extraHeaders : ExtraHeaders) (userAgent : Text) :
    (Clashing extraHeaders ∧
        ∃ error, createConfiguredS3Headers extraHeaders userAgent = .error error) ∨
      (¬ Clashing extraHeaders ∧
        ∃ headers, createConfiguredS3Headers extraHeaders userAgent = .ok headers ∧
          ∀ configured ∈ extraHeaders.entries, configured ∈ headers.entries) := by
  have accepted := checkConfiguredHeaders_sortHeaders extraHeaders
  rw [createConfiguredS3Headers]
  cases checked : checkConfiguredHeaders none (sortHeaders extraHeaders.entries) with
  | error error =>
      left
      rw [checked] at accepted
      have clashing : Clashing extraHeaders := by
        by_contra none
        cases accepted.mpr none
      exact ⟨clashing, error, rfl⟩
  | ok _ =>
      right
      rw [checked] at accepted
      have none := accepted.mp rfl
      refine ⟨none, _, rfl, ?_⟩
      intro configured member
      have perm := sortHeaders_perm extraHeaders.entries
      have entries := @entries_setHeaders .empty (sortHeaders extraHeaders.entries)
        (fun _ _ => List.not_mem_nil)
        ((perm.map fun header => lower header.1).nodup_iff.mpr (not_clashing_iff.mp none).1)
      have isSet : configured ∈ (setHeaders .empty (sortHeaders extraHeaders.entries)).entries := by
        rw [entries]
        exact perm.mem_iff.mpr member
      split
      · exact isSet
      · rw [HTTPHeaders.insert]
        split
        · exact isSet
        · exact List.mem_append_left _ isSet

/-! ## Headers of HTTPFS -/

namespace S3HeaderBuilder

/-- What is set on top of the configured headers; `Authorization` tells which names are
signed and how. -/
def ownHeaders (now : Timestamp) (builder : S3HeaderBuilder) (signedHeaders signature : Text) :
    List (Text × Text) :=
  match getAuthType builder.authParams with
  | .anonymous => [("Host".toList, builder.host)]
  | .sigV4 =>
      let builder := builder.initializeDefaults now
      ("Host".toList, builder.host) :: (builder.requestHeaders ++
        [("Authorization".toList, builder.authorization signedHeaders signature)])
  | .bearer =>
      [("Authorization".toList, "Bearer ".toList ++ builder.authParams.oauth2BearerToken),
          ("Host".toList, builder.host)] ++
        (if builder.contentType.isEmpty then [] else [("Content-Type".toList, builder.contentType)]) ++
        (if builder.contentMd5.isEmpty then [] else [("Content-MD5".toList, builder.contentMd5)])

theorem setHeaders_append (headers : HTTPHeaders) (values others : List (Text × Text)) :
    setHeaders headers (values ++ others) = setHeaders (setHeaders headers values) others :=
  List.foldl_append

/-- The defaults do not depend on the headers. -/
theorem initializeDefaults_headers (now : Timestamp) (builder : S3HeaderBuilder)
    (headers : HTTPHeaders) :
    ({ builder with headers } : S3HeaderBuilder).initializeDefaults now =
      { builder.initializeDefaults now with headers } := by
  simp only [initializeDefaults]
  split
  · split <;> rfl
  · split <;> rfl

theorem ownHeaders_headers (now : Timestamp) (builder : S3HeaderBuilder) (headers : HTTPHeaders)
    (signedHeaders signature : Text) :
    ({ builder with headers } : S3HeaderBuilder).ownHeaders now signedHeaders signature =
      builder.ownHeaders now signedHeaders signature := by
  rw [ownHeaders, ownHeaders, initializeDefaults_headers]
  rfl

theorem exists_create_eq (encode : Text → Text) (now : Timestamp) (builder : S3HeaderBuilder)
    (signs : getAuthType builder.authParams = .sigV4) :
    ∃ signedHeaders signature, builder.create encode now =
      setHeaders builder.headers (builder.ownHeaders now signedHeaders signature) := by
  refine ⟨buildSignedHeaders (builder.prepared now).buildCanonicalHeaders,
    (builder.prepared now).createSignature ((builder.prepared now).canonicalRequest encode), ?_⟩
  rw [create_eq, ownHeaders, signs]
  change _ = setHeaders (builder.headers.set "Host".toList _) _
  rw [setHeaders_append, prepared, initializeDefaults_headers]
  have host : (builder.initializeDefaults now).host = builder.host := by
    simp only [initializeDefaults]
    split
    · split <;> rfl
    · split <;> rfl
  rw [host]
  rfl

/-- Only headers of HTTPFS are set. -/
theorem contains_of_mem_ownHeaders {now : Timestamp} {builder : S3HeaderBuilder}
    {signedHeaders signature : Text} :
    ∀ own ∈ builder.ownHeaders now signedHeaders signature,
      HTTPFSOwnedS3Headers.contains own.1 = true := by
  have named {name : Text} {names : List Text}
      (allOwned : ∀ other ∈ names, HTTPFSOwnedS3Headers.contains other = true)
      (member : lower name ∈ names.map lower) : HTTPFSOwnedS3Headers.contains name = true := by
    obtain ⟨other, isOther, same⟩ := List.mem_map.mp member
    have owned := allOwned other isOther
    rw [HTTPFSOwnedS3Headers.contains, HTTPFSOwnedS3Headers.find?] at owned ⊢
    rwa [← same]
  have fixed : ∀ name ∈ ["Host".toList, "Authorization".toList, "Content-Type".toList,
      "Content-MD5".toList], HTTPFSOwnedS3Headers.contains name = true := by
    decide
  have signer : ∀ name ∈ signerNames ++ ["content-type".toList],
      HTTPFSOwnedS3Headers.contains name = true := by
    decide
  intro own member
  rw [ownHeaders] at member
  split at member
  · rw [List.mem_singleton.mp member]
    exact fixed _ (by simp)
  · rcases List.mem_cons.mp member with rfl | rest
    · exact fixed _ (by simp)
    · rcases List.mem_append.mp rest with request | authorization
      · apply named signer
        exact (builder.initializeDefaults now).names_requestHeaders.subset
          (List.mem_map.mpr ⟨own, request, rfl⟩)
      · rw [List.mem_singleton.mp authorization]
        exact fixed _ (by simp)
  · have isFixed : own.1 ∈ ["Host".toList, "Authorization".toList, "Content-Type".toList,
        "Content-MD5".toList] := by
      simp only [List.mem_append, List.mem_cons, List.not_mem_nil, or_false] at member
      rcases member with ((rfl | rfl) | typed) | summed
      · simp
      · simp
      · split at typed
        · cases typed
        · rw [List.mem_singleton.mp typed]
          simp
      · split at summed
        · cases summed
        · rw [List.mem_singleton.mp summed]
          simp
    exact fixed _ isFixed

/-! ## The order of signing -/

/-- The headers are signed in the order of their names, whatever order the map has. -/
theorem buildCanonicalHeaders_eq_of_perm (builder : S3HeaderBuilder) {enumerated : HTTPHeaders}
    (perm : enumerated.entries.Perm builder.headers.entries) :
    ({ builder with headers := enumerated } : S3HeaderBuilder).buildCanonicalHeaders =
      builder.buildCanonicalHeaders := by
  have names : ∀ name, name ∈ enumerated.names ↔ name ∈ builder.headers.names := fun name =>
    (perm.map fun header => lower header.1).mem_iff
  have signed : ((enumerated.entries.filter fun header => shouldSignHeader header.1).map
      canonicalHeader).Perm ((builder.headers.entries.filter fun header =>
        shouldSignHeader header.1).map canonicalHeader) :=
    (perm.filter _).map _
  have distinct : (((enumerated.entries.filter fun header => shouldSignHeader header.1).map
      canonicalHeader).map CanonicalHeader.name).Nodup := by
    rw [List.map_map]
    exact enumerated.distinct.sublist ((List.filter_sublist).map _)
  have apart {headers : List CanonicalHeader} (distinct : (headers.map CanonicalHeader.name).Nodup) :
      ∀ left ∈ headers, ∀ right ∈ headers, left.name = right.name → left = right :=
    fun left isLeft right isRight same => List.inj_on_of_nodup_map distinct isLeft isRight same
  simp only [buildCanonicalHeaders, names]
  split
  · rename_i absent
    apply insertionSort_eq_of_perm CanonicalHeader.name (signed.append_right _)
    apply apart
    rw [List.map_append, List.nodup_append]
    refine ⟨distinct, List.nodup_singleton _, ?_⟩
    rintro _ member _ isContentType rfl
    obtain ⟨header, isSigned, same⟩ := List.mem_map.mp member
    obtain ⟨sent, isSent, rfl⟩ := List.mem_map.mp isSigned
    have typed : lower sent.1 = "content-type".toList :=
      same.trans (List.mem_singleton.mp isContentType)
    have present : lower "content-type".toList ∈ enumerated.names := by
      have lowered : lower "content-type".toList = "content-type".toList := by decide
      rw [lowered, ← typed]
      exact List.mem_map.mpr ⟨sent, List.mem_of_mem_filter isSent, rfl⟩
    exact absent.2 ((names _).mp present)
  · exact insertionSort_eq_of_perm CanonicalHeader.name signed (apart distinct)

end S3HeaderBuilder

/-! ## Requests -/

/-- The builder of a request without its configured headers. -/
theorem exists_createHeaders_eq (encode : Text → Text) (now : Timestamp)
    (encryptionUtil : EncryptionUtil) (parsedUrl : ParsedS3Url) (query : S3RequestQuery)
    (requestType : RequestType) (authParams : S3AuthParams)
    (dateNow datetimeNow payloadHash contentType contentMd5 : Text)
    (extraHeaders : ExtraHeaders) (userAgent : Text) :
    ∃ signedHeaders signature, createHeaders encode now encryptionUtil parsedUrl query requestType
        authParams dateNow datetimeNow payloadHash contentType contentMd5 extraHeaders userAgent =
      (createConfiguredS3Headers extraHeaders userAgent).map fun headers =>
        setHeaders headers ((headerBuilder encryptionUtil parsedUrl query requestType authParams
          dateNow datetimeNow payloadHash contentType contentMd5 .empty).ownHeaders now
            signedHeaders signature) := by
  rw [createHeaders]
  cases createConfiguredS3Headers extraHeaders userAgent with
  | error error => exact ⟨[], [], rfl⟩
  | ok headers =>
      cases authType : getAuthType authParams with
      | anonymous =>
          refine ⟨[], [], ?_⟩
          change Except.ok _ = Except.ok (setHeaders headers _)
          rw [S3HeaderBuilder.ownHeaders, headerBuilder, authType]
          rfl
      | sigV4 =>
          have signs : getAuthType (headerBuilder encryptionUtil parsedUrl query requestType
              authParams dateNow datetimeNow payloadHash contentType contentMd5
                headers).authParams = .sigV4 := authType
          obtain ⟨signedHeaders, signature, eq⟩ :=
            S3HeaderBuilder.exists_create_eq encode now _ signs
          refine ⟨signedHeaders, signature, ?_⟩
          have own := S3HeaderBuilder.ownHeaders_headers now (headerBuilder encryptionUtil parsedUrl
            query requestType authParams dateNow datetimeNow payloadHash contentType contentMd5
              .empty) headers signedHeaders signature
          change Except.ok _ = Except.ok (setHeaders headers _)
          rw [eq, ← own]
          rfl
      | bearer =>
          refine ⟨[], [], ?_⟩
          change Except.ok _ = Except.ok (setHeaders headers _)
          rw [S3HeaderBuilder.ownHeaders, headerBuilder, authType]

/-- The parameters come into a request in the order of their names. -/
theorem headerBuilder_eq_of_perm (encodeQuery : Text → Text) (encryptionUtil : EncryptionUtil)
    (parsedUrl : ParsedS3Url) (requestType : RequestType) (authParams : S3AuthParams)
    (dateNow datetimeNow payloadHash contentType contentMd5 : Text)
    {parameters reordered : List (Text × Text)} (perm : reordered.Perm parameters) :
    headerBuilder encryptionUtil parsedUrl (.ofParameters encodeQuery reordered) requestType
        authParams dateNow datetimeNow payloadHash contentType contentMd5 =
      headerBuilder encryptionUtil parsedUrl (.ofParameters encodeQuery parameters) requestType
        authParams dateNow datetimeNow payloadHash contentType contentMd5 := by
  have query := wireQuery_eq_of_perm encodeQuery perm
  have uploads : (S3RequestQuery.ofParameters encodeQuery reordered).hasParameter
      "uploadId".toList = (S3RequestQuery.ofParameters encodeQuery parameters).hasParameter
        "uploadId".toList :=
    perm.any_eq
  funext headers
  simp only [headerBuilder, uploads]
  rw [S3RequestQuery.ofParameters, S3RequestQuery.ofParameters, query]

/-- Neither the order of the configured headers nor that of the parameters shows in a
request or its signature.  It is refused exactly if configured headers clash; else they
are all in it, and the headers of HTTPFS have no value of theirs. -/
theorem createHeaders_enumerated (encode encodeQuery : Text → Text) (now : Timestamp)
    (encryptionUtil : EncryptionUtil) (parsedUrl : ParsedS3Url) (requestType : RequestType)
    (authParams : S3AuthParams) (dateNow datetimeNow payloadHash contentType contentMd5 : Text)
    (extraHeaders : ExtraHeaders) (userAgent : Text) (parameters : List (Text × Text)) :
    let create := fun extraHeaders parameters =>
      createHeaders encode now encryptionUtil parsedUrl (.ofParameters encodeQuery parameters)
        requestType authParams dateNow datetimeNow payloadHash contentType contentMd5 extraHeaders
        userAgent
    let builder := headerBuilder encryptionUtil parsedUrl (.ofParameters encodeQuery parameters)
      requestType authParams dateNow datetimeNow payloadHash contentType contentMd5 .empty
    (∀ enumerated reordered, enumerated.entries.Perm extraHeaders.entries →
      reordered.Perm parameters → create enumerated reordered = create extraHeaders parameters) ∧
    (∀ (signer : S3HeaderBuilder) (enumerated : HTTPHeaders),
      enumerated.entries.Perm signer.headers.entries →
        ({ signer with headers := enumerated } : S3HeaderBuilder).buildCanonicalHeaders =
          signer.buildCanonicalHeaders) ∧
    ((∃ error, create extraHeaders parameters = .error error) ↔ Clashing extraHeaders) ∧
    ∀ headers, create extraHeaders parameters = .ok headers →
      (∀ configured ∈ extraHeaders.entries, configured ∈ headers.entries) ∧
      ∃ signedHeaders signature, ∀ header ∈ headers.entries,
        HTTPFSOwnedS3Headers.contains header.1 = true →
          ∃ own ∈ builder.ownHeaders now signedHeaders signature,
            lower header.1 = lower own.1 ∧ header.2 = own.2 := by
  intro create builder
  have decomposed := exists_createHeaders_eq encode now encryptionUtil parsedUrl
    (.ofParameters encodeQuery parameters) requestType authParams dateNow datetimeNow payloadHash
    contentType contentMd5 extraHeaders userAgent
  obtain ⟨signedHeaders, signature, eq⟩ := decomposed
  refine ⟨?_, ?_, ?_, ?_⟩
  · intro enumerated reordered perm reorders
    have sorted : sortHeaders enumerated.entries = sortHeaders extraHeaders.entries :=
      sortHeaders_eq_of_perm enumerated.distinct perm
    have configured : createConfiguredS3Headers enumerated userAgent =
        createConfiguredS3Headers extraHeaders userAgent := by
      rw [createConfiguredS3Headers, createConfiguredS3Headers, sorted]
    have queries := headerBuilder_eq_of_perm encodeQuery encryptionUtil parsedUrl requestType
      authParams dateNow datetimeNow payloadHash contentType contentMd5 reorders
    change createHeaders _ _ _ _ _ _ _ _ _ _ _ _ _ _ = createHeaders _ _ _ _ _ _ _ _ _ _ _ _ _ _
    simp only [createHeaders, configured, queries]
  · exact fun signer enumerated => signer.buildCanonicalHeaders_eq_of_perm
  · change (∃ error, createHeaders _ _ _ _ _ _ _ _ _ _ _ _ _ _ = .error error) ↔ _
    rw [eq]
    rcases createConfiguredS3Headers_cases extraHeaders userAgent with
      ⟨clashing, error, fails⟩ | ⟨none, headers, creates, -⟩
    · rw [fails]
      exact ⟨fun _ => clashing, fun _ => ⟨error, rfl⟩⟩
    · rw [creates]
      exact ⟨nofun, fun clashing => absurd clashing none⟩
  · intro headers creates
    change createHeaders _ _ _ _ _ _ _ _ _ _ _ _ _ _ = .ok headers at creates
    rw [eq] at creates
    rcases createConfiguredS3Headers_cases extraHeaders userAgent with
      ⟨-, error, fails⟩ | ⟨none, configured, isConfigured, kept⟩
    · rw [fails] at creates
      cases creates
    · rw [isConfigured] at creates
      obtain rfl := Except.ok.inj creates
      constructor
      · intro header member
        apply mem_setHeaders_of_apart (kept header member)
        intro own isOwn same
        have owned := S3HeaderBuilder.contains_of_mem_ownHeaders own isOwn
        have notOwned := (not_clashing_iff.mp none).2 header member
        rw [HTTPFSOwnedS3Headers.contains, HTTPFSOwnedS3Headers.find?] at owned notOwned
        rw [same, owned] at notOwned
        contradiction
      · refine ⟨signedHeaders, signature, fun header member owned => ?_⟩
        rcases mem_setHeaders member with ⟨isConfigured', -⟩ | own
        · rw [not_contains_of_createConfiguredS3Headers isConfigured header isConfigured'] at owned
          contradiction
        · exact own

end Httpfs.S3
