import Httpfs.S3.Request.Signing
import Mathlib.Data.List.Dedup

/-!
# Requests as a server verifies them

A server makes the canonical request of what it receives: of the path, the query and
the headers that arrive.  It is the one that was signed.
-/

namespace Httpfs.S3

open Http Text

/-! ## What a verifier recomputes -/

/-- A request as it is sent. -/
structure SentRequest where
  method : Text
  url : Text
  headers : List (Text × Text)

namespace SentRequest

def canonicalUri (sent : SentRequest) : Text :=
  (decomposeUrl sent.url).2.takeWhile (· ≠ '?')

def queryString (sent : SentRequest) : Text :=
  ((decomposeUrl sent.url).2.dropWhile (· ≠ '?')).drop 1

/-- The parameters of the query string as they stand there. -/
def queryPairs (queryString : Text) : List (Text × Text) :=
  if queryString.isEmpty then []
  else (queryString.splitOn '&').map (decodedPair id)

/-- The parameters sorted by encoded name and then by value. -/
def canonicalQuery (sent : SentRequest) : Text :=
  ['&'].intercalate ((sortPairs (queryPairs sent.queryString)).map pairText)

/-- The headers that are signed, by their names in lower case. -/
def isSigned (name : Text) : Bool :=
  name == "host".toList || name == "content-md5".toList || name == "content-type".toList ||
    startsWith name "x-amz-".toList || startsWith name "x-goog-".toList

def signedNames (sent : SentRequest) : List Text :=
  (((sent.headers.map fun header => lower header.1).filter isSigned).dedup).insertionSort
    (· ≤ ·)

/-- The collapsed values of all headers of a name. -/
def valueOf (sent : SentRequest) (name : Text) : Text :=
  [','].intercalate ((sent.headers.filter fun header => lower header.1 = name).map fun header =>
    collapseBlanks header.2)

def canonicalRequest (sent : SentRequest) : Text :=
  sent.method ++ "\n".toList ++ sent.canonicalUri ++ "\n".toList ++ sent.canonicalQuery ++
    "\n".toList ++
    (sent.signedNames.flatMap fun name => name ++ ":".toList ++ sent.valueOf name ++ "\n".toList) ++
    "\n".toList ++ [';'].intercalate sent.signedNames ++ "\n".toList ++
    sent.valueOf "x-amz-content-sha256".toList

/-- The signed names are those of the sent headers, each once and in order. -/
theorem signedNames_spec (sent : SentRequest) :
    sent.signedNames.Pairwise (· < ·) ∧
      ∀ name, name ∈ sent.signedNames ↔
        isSigned name = true ∧ ∃ header ∈ sent.headers, lower header.1 = name := by
  constructor
  · have total : Std.Total fun left right : Text => left ≤ right := ⟨le_total⟩
    have trans : IsTrans Text fun left right => left ≤ right := ⟨fun _ _ _ => le_trans⟩
    have sorted := List.pairwise_insertionSort (· ≤ ·)
      (((sent.headers.map fun header => lower header.1).filter isSigned).dedup)
    have distinct : sent.signedNames.Nodup :=
      (List.perm_insertionSort (· ≤ ·) _).nodup_iff.mpr (List.nodup_dedup _)
    apply (List.pairwise_and_iff.mpr ⟨sorted, distinct⟩).imp
    rintro left right ⟨ordered, different⟩
    exact lt_of_le_of_ne ordered different
  · intro name
    rw [signedNames, (List.perm_insertionSort (· ≤ ·) _).mem_iff, List.mem_dedup, List.mem_filter,
      List.mem_map, and_comm]

end SentRequest

/-! ## What is sent -/

/-- The headers of a request as a client sends them: with the content type of a body
that is put, and with one for a body that is posted without. -/
def clientHeaders (requestType : RequestType) (contentType : Text)
    (headers : List (Text × Text)) : List (Text × Text) :=
  match requestType with
  | .put =>
      if contentType.isEmpty then headers else headers ++ [("Content-Type".toList, contentType)]
  | .post =>
      if headers.any fun header => lower header.1 == lower "Content-Type".toList then headers
      else headers ++ [("Content-Type".toList, octetStream)]
  | _ => headers

theorem mem_clientHeaders {requestType : RequestType} {contentType : Text}
    {headers : List (Text × Text)} {header : Text × Text} (member : header ∈ headers) :
    header ∈ clientHeaders requestType contentType headers := by
  unfold clientHeaders
  split
  · split
    · exact member
    · exact List.mem_append_left _ member
  · split
    · exact member
    · exact List.mem_append_left _ member
  · exact member

/-- A request is sent with its headers in any order, and with further headers that are
never signed. -/
structure Sends (requestData : S3RequestData) (contentType : Text) (sent : SentRequest) : Prop where
  method : sent.method = getRequestMethod requestData.requestType
  url : sent.url = requestData.httpUrl
  headers : ∃ further, (∀ header ∈ further, shouldSignHeader header.1 = false) ∧
    sent.headers.Perm
      (clientHeaders requestData.requestType contentType requestData.headers ++ further)

/-- The content types that clients send as they are signed: with a body that is put only
the one that they add themselves, with one that is posted any, and without a body any but
the one that they would have to add. -/
def TransportedAsSigned (requestType : RequestType) (contentType : Text) : Prop :=
  match requestType with
  | .put => contentType = [] ∨ contentType = octetStream
  | .post => contentType ≠ []
  | _ => contentType ≠ octetStream

/-! ## Queries -/

theorem wireQuery_eq_intercalate (encode : Text → Text) (parameters : List (Text × Text)) :
    wireQuery encode parameters =
      ['&'].intercalate ((sortPairs (parameters.map fun parameter =>
        (encode parameter.1, encode parameter.2))).map pairText) := by
  rw [wireQuery]
  generalize sortPairs _ = pairs
  cases pairs with
  | nil => rfl
  | cons pair pairs =>
      have nonempty : pairText pair ≠ [] := by simp [pairText]
      rw [List.map_cons, intercalate_cons, List.flatMap_map]
      exact foldl_pairText pairs nonempty

/-- A query that is sent is read back as its sorted parameters. -/
theorem queryPairs_wireQuery {encode : Text → Text}
    (separatorFree : ∀ text, '&' ∉ encode text ∧ '=' ∉ encode text)
    (parameters : List (Text × Text)) :
    SentRequest.queryPairs (wireQuery encode parameters) =
      sortPairs (parameters.map fun parameter => (encode parameter.1, encode parameter.2)) := by
  have free : ∀ pair ∈ sortPairs (parameters.map fun parameter =>
      (encode parameter.1, encode parameter.2)), '&' ∉ pairText pair ∧ '=' ∉ pair.1 := by
    intro pair member
    obtain ⟨parameter, -, rfl⟩ := List.mem_map.mp ((sortPairs_perm _).mem_iff.mp member)
    exact ⟨by simp [pairText, (separatorFree _).1], (separatorFree parameter.1).2⟩
  rw [wireQuery_eq_intercalate, SentRequest.queryPairs]
  generalize sortPairs _ = pairs at free
  cases pairs with
  | nil => rfl
  | cons pair pairs =>
      have firstFree := free pair List.mem_cons_self
      have restFree : ∀ piece ∈ pairs.map pairText, '&' ∉ piece := by
        rw [List.forall_mem_map]
        exact fun other member => (free other (List.mem_cons_of_mem _ member)).1
      rw [List.map_cons, intercalate_cons, if_neg (by simp [pairText]),
        splitOn_pieces firstFree.1 restFree, ← List.map_cons, List.map_map]
      conv_rhs => rw [← List.map_id (pair :: pairs)]
      apply List.map_congr_left
      intro other member
      have nameFree := (free other member).2
      rw [Function.comp_apply, decodedPair, pairText, takeWhile_ne_append nameFree,
        dropWhile_ne_append nameFree]
      rfl

/-! ## The headers that are signed -/

/-- The canonical headers of what is sent. -/
def signable (headers : List (Text × Text)) : List CanonicalHeader :=
  (headers.filter fun header => shouldSignHeader header.1).map fun header =>
    ⟨lower header.1, collapseBlanks header.2⟩

theorem signable_append (headers others : List (Text × Text)) :
    signable (headers ++ others) = signable headers ++ signable others := by
  rw [signable, List.filter_append, List.map_append]
  rfl

theorem map_name_signable (headers : List (Text × Text)) :
    (signable headers).map CanonicalHeader.name =
      (headers.map fun header => lower header.1).filter SentRequest.isSigned := by
  rw [signable, List.map_map, List.filter_map]
  rfl

theorem signable_perm {headers others : List (Text × Text)} (perm : headers.Perm others) :
    (signable headers).Perm (signable others) :=
  (perm.filter _).map _

namespace SentRequest

/-- Headers with different names are verified one by one. -/
theorem valueOf_eq {sent : SentRequest} {headers : List CanonicalHeader}
    (perm : (signable sent.headers).Perm headers)
    (distinct : (headers.map CanonicalHeader.name).Nodup) {header : CanonicalHeader}
    (member : header ∈ headers) : sent.valueOf header.name = header.value := by
  have signed : isSigned header.name = true := by
    have inSent := perm.mem_iff.mpr member
    obtain ⟨raw, inFilter, rfl⟩ := List.mem_map.mp inSent
    exact (List.mem_filter.mp inFilter).2
  have alone : headers.filter (fun other => other.name = header.name) = [header] := by
    apply List.perm_singleton.mp
    rw [List.perm_ext_iff_of_nodup (distinct.of_map.filter _) (List.nodup_singleton _)]
    intro other
    rw [List.mem_filter, List.mem_singleton, decide_eq_true_eq]
    constructor
    · rintro ⟨inside, same⟩
      exact List.inj_on_of_nodup_map distinct inside member same
    · rintro rfl
      exact ⟨member, rfl⟩
  have values : (sent.headers.filter fun raw => lower raw.1 = header.name).map
      (fun raw => collapseBlanks raw.2) =
        ((signable sent.headers).filter fun other => other.name = header.name).map
          CanonicalHeader.value := by
    rw [signable, List.filter_map, List.filter_filter, List.map_map]
    congr 1
    apply List.filter_congr
    intro raw _
    by_cases same : lower raw.1 = header.name
    · have isSignedRaw : shouldSignHeader raw.1 = true := by
        change isSigned (lower raw.1) = true
        rw [same]
        exact signed
      simp [same, isSignedRaw]
    · simp [same]
  have single := (perm.filter fun other => decide (other.name = header.name)).trans
    (List.Perm.of_eq alone)
  rw [valueOf, values, List.perm_singleton.mp single]
  simp [List.intercalate]

theorem signedNames_perm {sent : SentRequest} {headers : List CanonicalHeader}
    (perm : (signable sent.headers).Perm headers)
    (distinct : (headers.map CanonicalHeader.name).Nodup) :
    sent.signedNames.Perm (headers.map CanonicalHeader.name) := by
  have names := perm.map CanonicalHeader.name
  rw [map_name_signable] at names
  rw [signedNames, (names.nodup_iff.mpr distinct).dedup]
  exact (List.perm_insertionSort _ _).trans names

/-- The sorted headers of the signer are the signed names with their values. -/
theorem sorted_eq {sent : SentRequest} {headers : List CanonicalHeader}
    (perm : (signable sent.headers).Perm headers)
    (distinct : (headers.map CanonicalHeader.name).Nodup) :
    headers.insertionSort (fun left right => left.name ≤ right.name) =
      sent.signedNames.map fun name => ⟨name, sent.valueOf name⟩ := by
  have total : Std.Total fun left right : CanonicalHeader => left.name ≤ right.name :=
    ⟨fun left right => le_total left.name right.name⟩
  have trans : IsTrans CanonicalHeader fun left right => left.name ≤ right.name :=
    ⟨fun _ _ _ => le_trans⟩
  have sorting := List.perm_insertionSort (fun left right : CanonicalHeader =>
    left.name ≤ right.name) headers
  have sorted := List.pairwise_insertionSort (fun left right : CanonicalHeader =>
    left.name ≤ right.name) headers
  have sortedDistinct := List.pairwise_map.mp ((sorting.map _).nodup_iff.mpr distinct)
  have strict : (headers.insertionSort fun left right => left.name ≤ right.name).Pairwise
      fun left right => left.name < right.name := by
    apply (List.pairwise_and_iff.mpr ⟨sorted, sortedDistinct⟩).imp
    rintro left right ⟨ordered, different⟩
    exact lt_of_le_of_ne ordered different
  have verified : (sent.signedNames.map fun name =>
      (⟨name, sent.valueOf name⟩ : CanonicalHeader)).Perm headers := by
    have names := (signedNames_perm perm distinct).map fun name =>
      (⟨name, sent.valueOf name⟩ : CanonicalHeader)
    apply names.trans (List.Perm.of_eq _)
    rw [List.map_map]
    conv_rhs => rw [← List.map_id headers]
    apply List.map_congr_left
    intro header member
    rw [Function.comp_apply, valueOf_eq perm distinct member]
    rfl
  apply List.Perm.eq_of_pairwise _ strict (List.pairwise_map.mpr sent.signedNames_spec.1)
    (sorting.trans verified.symm)
  intro left right _ _ before after
  exact absurd after (lt_asymm before)

end SentRequest

/-! ## Values without blanks -/

theorem isBlank_digitChar (value : Nat) : isBlank (Nat.digitChar (value % 16)) = false := by
  have small : ∀ digit < 16, isBlank (Nat.digitChar digit) = false := by decide
  exact small (value % 16) (Nat.mod_lt value (by decide))

theorem blankFree_hex256 (bytes : Text) : ∀ byte ∈ hex256 bytes, isBlank byte = false := by
  intro byte member
  obtain ⟨source, -, inside⟩ := List.mem_flatMap.mp member
  rcases List.mem_cons.mp inside with rfl | inside
  · exact isBlank_digitChar _
  · rw [List.mem_singleton.mp inside]
    exact isBlank_digitChar _

theorem blankFree_padded (width number : Nat) : ∀ byte ∈ padded width number, isBlank byte = false := by
  intro byte member
  rcases List.mem_append.mp member with zero | digit
  · rw [List.eq_of_mem_replicate zero]
    decide
  · have isDigit := Nat.isDigit_of_mem_toDigits (by decide) (by decide) digit
    rw [isBlank, Bool.or_eq_false_iff, beq_eq_false_iff_ne, beq_eq_false_iff_ne]
    constructor
    · rintro rfl
      contradiction
    · rintro rfl
      contradiction

theorem blankFree_append {front back : Text} (frontFree : ∀ byte ∈ front, isBlank byte = false)
    (backFree : ∀ byte ∈ back, isBlank byte = false) :
    ∀ byte ∈ front ++ back, isBlank byte = false := by
  rw [List.forall_mem_append]
  exact ⟨frontFree, backFree⟩

theorem Timestamp.collapsed_datetime (now : Timestamp) : Collapsed now.datetime := by
  apply collapsed_of_blankFree
  have dateFree := blankFree_append (blankFree_append (blankFree_padded 4 now.year)
    (blankFree_padded 2 now.month)) (blankFree_padded 2 now.day)
  have zoneFree : ∀ byte ∈ ['Z'], isBlank byte = false := by decide
  have timeFree := blankFree_append (blankFree_append (blankFree_append
    (blankFree_padded 2 now.hour) (blankFree_padded 2 now.minute))
    (blankFree_padded 2 now.second)) zoneFree
  exact blankFree_append dateFree (List.forall_mem_cons.mpr ⟨by decide, timeFree⟩)

theorem Timestamp.datetime_ne_nil (now : Timestamp) : now.datetime ≠ [] := by
  simp [datetime]

theorem collapsed_getPayloadHash (encryptionUtil : EncryptionUtil) (buffer : Text) :
    Collapsed (getPayloadHash encryptionUtil buffer) := by
  rw [getPayloadHash]
  split
  · exact collapsed_of_blankFree (by decide)
  · exact collapsed_of_blankFree (blankFree_hex256 _)

/-! ## What the signer sets -/

/-- The headers that HTTPFS set itself have no blanks to collapse. -/
def OwnedCollapsed (headers : HTTPHeaders) : Prop :=
  ∀ header ∈ headers.entries,
    HTTPFSOwnedS3Headers.contains header.1 = true → Collapsed header.2

theorem OwnedCollapsed.set {headers : HTTPHeaders} (owned : OwnedCollapsed headers)
    (name : Text) {value : Text} (collapsed : Collapsed value) :
    OwnedCollapsed (headers.set name value) := by
  intro header member isOwned
  rcases HTTPHeaders.mem_set member with ⟨before, -⟩ | ⟨-, isValue⟩
  · exact owned header before isOwned
  · exact isValue ▸ collapsed

theorem OwnedCollapsed.setHeaders {headers : HTTPHeaders} (owned : OwnedCollapsed headers)
    {values : List (Text × Text)} (collapsed : ∀ value ∈ values, Collapsed value.2) :
    OwnedCollapsed (setHeaders headers values) := by
  intro header member isOwned
  rcases mem_setHeaders member with ⟨before, -⟩ | ⟨value, isValue, -, same⟩
  · exact owned header before isOwned
  · exact same ▸ collapsed value isValue

theorem canonicalHeader_eq {headers : HTTPHeaders} (owned : OwnedCollapsed headers)
    {header : Text × Text} (member : header ∈ headers.entries) :
    S3HeaderBuilder.canonicalHeader header = ⟨lower header.1, collapseBlanks header.2⟩ := by
  rw [S3HeaderBuilder.canonicalHeader, normalizeHeaderValue, collapseStep_eq]
  split
  · rename_i isOwned
    rw [collapseBlanks_of_collapsed (owned header member isOwned)]
  · rfl

/-- The names that a signer sets besides the content type. -/
def signerNames : List Text :=
  ["x-amz-date".toList, "x-amz-content-sha256".toList, "x-amz-security-token".toList,
    "x-amz-server-side-encryption".toList, "x-amz-server-side-encryption-aws-kms-key-id".toList,
    "x-amz-request-payer".toList, "content-md5".toList]

namespace S3HeaderBuilder

/-- The content type comes last, and only if the client does not add it. -/
theorem exists_requestHeaders (builder : S3HeaderBuilder) :
    ∃ front, builder.requestHeaders = front ++
        (if builder.contentType.isEmpty || builder.contentType == octetStream then []
          else [("content-type".toList, builder.contentType)]) ∧
      (front.map Prod.fst).Sublist signerNames := by
  refine ⟨_, rfl, ?_⟩
  simp only [List.map_append]
  have optional (test : Bool) (name value : Text) :
      ((if test then [] else [(name, value)] : List (Text × Text)).map Prod.fst).Sublist [name] := by
    cases test
    · exact List.Sublist.refl _
    · exact List.nil_sublist _
  have required (test : Bool) (headers : List (Text × Text)) :
      ((if test then headers else [] : List (Text × Text)).map Prod.fst).Sublist
        (headers.map Prod.fst) := by
    cases test
    · exact List.nil_sublist _
    · exact List.Sublist.refl _
  exact ((((List.Sublist.refl _).append (optional _ _ _)).append (required _ _)).append
    (required _ _)).append (optional _ _ _)

theorem names_requestHeaders (builder : S3HeaderBuilder) :
    (builder.requestHeaders.map fun header => lower header.1).Sublist
      ((signerNames ++ ["content-type".toList]).map lower) := by
  obtain ⟨front, eq, names⟩ := builder.exists_requestHeaders
  have last : ((if builder.contentType.isEmpty || builder.contentType == octetStream then []
      else [("content-type".toList, builder.contentType)] : List (Text × Text)).map
        Prod.fst).Sublist ["content-type".toList] := by
    split
    · exact List.nil_sublist _
    · exact List.Sublist.refl _
  rw [eq]
  have all := (names.append last).map lower
  rw [← List.map_append, List.map_map] at all
  exact all

/-- Each header is set once. -/
theorem alone_in_requestHeaders (builder : S3HeaderBuilder) {value other : Text × Text}
    (member : value ∈ builder.requestHeaders) (isOther : other ∈ builder.requestHeaders)
    (same : lower other.1 = lower value.1) : other = value := by
  have distinct : (builder.requestHeaders.map fun header => lower header.1).Nodup := by
    apply builder.names_requestHeaders.nodup
    decide
  exact List.inj_on_of_nodup_map distinct isOther member same

theorem contentType_mem_requestHeaders (builder : S3HeaderBuilder) :
    (∃ value ∈ builder.requestHeaders, lower "content-type".toList = lower value.1) ↔
      builder.contentType ≠ [] ∧ builder.contentType ≠ octetStream := by
  obtain ⟨front, eq, names⟩ := builder.exists_requestHeaders
  have notInFront : ∀ value ∈ front, lower "content-type".toList ≠ lower value.1 := by
    have apart : ∀ name ∈ signerNames, lower "content-type".toList ≠ lower name := by
      decide
    intro value member
    exact apart value.1 (names.subset (List.mem_map.mpr ⟨value, member, rfl⟩))
  rw [eq]
  by_cases unset : builder.contentType = [] ∨ builder.contentType = octetStream
  · apply iff_of_false
    · rw [if_pos (by simpa using unset), List.append_nil]
      rintro ⟨value, member, same⟩
      exact notInFront value member same
    · rintro ⟨nonempty, other⟩
      exact unset.elim nonempty other
  · rw [not_or] at unset
    apply iff_of_true
    · rw [if_neg (by simpa using unset)]
      exact ⟨_, List.mem_append_right front List.mem_cons_self, rfl⟩
    · exact unset

/-- What HTTPFS puts into headers has no blanks to collapse. -/
structure CollapsedValues (builder : S3HeaderBuilder) : Prop where
  sessionToken : Collapsed builder.authParams.sessionToken
  kmsKeyId : Collapsed builder.authParams.kmsKeyId
  datetimeNow : Collapsed builder.datetimeNow
  payloadHash : Collapsed builder.payloadHash
  contentType : Collapsed builder.contentType
  contentMd5 : Collapsed builder.contentMd5

theorem CollapsedValues.requestHeaders {builder : S3HeaderBuilder}
    (values : builder.CollapsedValues) :
    ∀ header ∈ builder.requestHeaders, Collapsed header.2 := by
  have optional (test : Bool) (name : Text) {value : Text} (collapsed : Collapsed value) :
      ∀ header ∈ (if test then [] else [(name, value)] : List (Text × Text)),
        Collapsed header.2 := by
    cases test
    · exact List.forall_mem_singleton.mpr collapsed
    · exact fun _ impossible => absurd impossible List.not_mem_nil
  have required (test : Bool) {headers : List (Text × Text)}
      (collapsed : ∀ header ∈ headers, Collapsed header.2) :
      ∀ header ∈ (if test then headers else []), Collapsed header.2 := by
    cases test
    · exact fun _ impossible => absurd impossible List.not_mem_nil
    · exact collapsed
  have kms : Collapsed "aws:kms".toList := collapsed_of_blankFree (by decide)
  have requester : Collapsed "requester".toList := collapsed_of_blankFree (by decide)
  simp only [S3HeaderBuilder.requestHeaders, List.forall_mem_append]
  refine ⟨⟨⟨⟨⟨?_, ?_⟩, ?_⟩, ?_⟩, ?_⟩, ?_⟩
  · exact List.forall_mem_cons.mpr
      ⟨values.datetimeNow, List.forall_mem_singleton.mpr values.payloadHash⟩
  · exact optional _ _ values.sessionToken
  · exact required _ (List.forall_mem_cons.mpr
      ⟨kms, List.forall_mem_singleton.mpr values.kmsKeyId⟩)
  · exact required _ (List.forall_mem_singleton.mpr requester)
  · exact optional _ _ values.contentMd5
  · exact optional _ _ values.contentType

/-- A payload hash that is given, or the one of an empty payload. -/
def signedPayloadHash (builder : S3HeaderBuilder) : Text :=
  if builder.payloadHash.isEmpty then
    "e3b0c44298fc1c149afbf4c8996fb92427ae41e4649b934ca495991b7852b855".toList
  else builder.payloadHash

/-- What a signer without a time starts from. -/
def started (now : Timestamp) (builder : S3HeaderBuilder) : S3HeaderBuilder :=
  { builder with
    headers := builder.headers.set "Host".toList builder.host
    payloadHash := builder.signedPayloadHash
    dateNow := now.date
    datetimeNow := now.datetime }

theorem prepared_eq {builder : S3HeaderBuilder} (now : Timestamp)
    (untimed : builder.datetimeNow = []) :
    builder.prepared now = (builder.started now).addRequestHeaders := by
  rw [prepared, initializeDefaults, started, signedPayloadHash]
  dsimp only
  split
  · rw [untimed]
    rfl
  · rw [untimed]
    rfl

theorem create_eq (encode : Text → Text) (now : Timestamp) (builder : S3HeaderBuilder) :
    builder.create encode now = (builder.prepared now).headers.set "Authorization".toList
      ((builder.prepared now).authorization
        (buildSignedHeaders (builder.prepared now).buildCanonicalHeaders)
        ((builder.prepared now).createSignature ((builder.prepared now).canonicalRequest encode))) :=
  rfl

theorem collapsed_signedPayloadHash {builder : S3HeaderBuilder}
    (payloadHash : Collapsed builder.payloadHash) : Collapsed builder.signedPayloadHash := by
  rw [signedPayloadHash]
  split
  · exact collapsed_of_blankFree (by decide)
  · exact payloadHash

section Signed

variable {configured : HTTPHeaders} {builder : S3HeaderBuilder}
  (foreign : ∀ header ∈ configured.entries, HTTPFSOwnedS3Headers.contains header.1 = false)
  (hosted : builder.headers = configured.set "Host".toList builder.host)

include foreign hosted

theorem contentType_mem_names :
    lower "content-type".toList ∈ builder.addRequestHeaders.headers.names ↔
      builder.contentType ≠ [] ∧ builder.contentType ≠ octetStream := by
  have notConfigured : lower "content-type".toList ∉ configured.names := by
    intro inside
    obtain ⟨header, member, same⟩ := List.mem_map.mp inside
    have owned : HTTPFSOwnedS3Headers.contains header.1 = true := by
      apply HTTPFSOwnedS3Headers.contains_iff.mpr
      refine ⟨"Content-Type".toList, by decide, ?_⟩
      rw [same]
      decide
    rw [foreign header member] at owned
    contradiction
  have notHost : lower "content-type".toList ≠ lower "Host".toList := by decide
  change lower "content-type".toList ∈ (setHeaders builder.headers builder.requestHeaders).names ↔ _
  rw [mem_names_setHeaders, hosted, HTTPHeaders.names_set, HTTPHeaders.mem_names_insert,
    contentType_mem_requestHeaders]
  exact or_iff_right fun earlier => earlier.elim notHost notConfigured

/-- The content type that is signed without being set is the one a client adds. -/
theorem addsContentType_iff :
    (!builder.contentType.isEmpty ∧
        lower "content-type".toList ∉ builder.addRequestHeaders.headers.names) ↔
      builder.contentType = octetStream := by
  rw [contentType_mem_names foreign hosted]
  constructor
  · rintro ⟨nonempty, unset⟩
    by_contra other
    exact unset ⟨by simpa using nonempty, other⟩
  · intro same
    rw [same]
    exact ⟨by decide, fun both => both.2 rfl⟩

theorem ownedCollapsed_addRequestHeaders (host : Collapsed builder.host)
    (values : builder.CollapsedValues) : OwnedCollapsed builder.addRequestHeaders.headers := by
  have configuredCollapsed : OwnedCollapsed configured := by
    intro header member owned
    rw [foreign header member] at owned
    contradiction
  change OwnedCollapsed (setHeaders builder.headers builder.requestHeaders)
  rw [hosted]
  exact (configuredCollapsed.set _ host).setHeaders values.requestHeaders

/-- The client adds the content type exactly if it was signed without being set. -/
theorem clientHeaders_eq {requestType : RequestType}
    (transported : TransportedAsSigned requestType builder.contentType) (value : Text) :
    clientHeaders requestType builder.contentType
        (builder.addRequestHeaders.headers.set "Authorization".toList value).entries =
      (builder.addRequestHeaders.headers.set "Authorization".toList value).entries ++
        (if builder.contentType = octetStream then [("Content-Type".toList, octetStream)]
          else []) := by
  have hasContentType :
      (builder.addRequestHeaders.headers.set "Authorization".toList value).entries.any
          (fun header => lower header.1 == lower "Content-Type".toList) = true ↔
        builder.contentType ≠ [] ∧ builder.contentType ≠ octetStream := by
    have notAuthorization : lower "content-type".toList ≠ lower "Authorization".toList := by
      decide
    have spelled : lower "Content-Type".toList = lower "content-type".toList := by decide
    have named : lower "content-type".toList ∈
        (builder.addRequestHeaders.headers.set "Authorization".toList value).names ↔
          builder.contentType ≠ [] ∧ builder.contentType ≠ octetStream := by
      rw [HTTPHeaders.names_set, HTTPHeaders.mem_names_insert, contentType_mem_names foreign hosted]
      exact or_iff_right notAuthorization
    rw [← named, spelled, List.any_eq_true, HTTPHeaders.names, List.mem_map]
    simp only [beq_iff_eq]
  cases requestType with
  | put =>
      rcases transported with none | octet
      · rw [none, clientHeaders, if_neg (show ([] : Text) ≠ octetStream by decide), List.append_nil]
        rfl
      · rw [octet, clientHeaders, if_pos rfl]
        rfl
  | post =>
      rw [clientHeaders]
      by_cases octet : builder.contentType = octetStream
      · rw [if_neg (fun has => (hasContentType.mp has).2 octet), if_pos octet]
      · rw [if_pos (hasContentType.mpr ⟨transported, octet⟩), if_neg octet, List.append_nil]
  | get => rw [clientHeaders, if_neg transported, List.append_nil]; all_goals nofun
  | head => rw [clientHeaders, if_neg transported, List.append_nil]; all_goals nofun
  | delete => rw [clientHeaders, if_neg transported, List.append_nil]; all_goals nofun
  | options => rw [clientHeaders, if_neg transported, List.append_nil]; all_goals nofun

/-- The canonical headers, before they are sorted, are those of what a client sends. -/
theorem buildCanonicalHeaders_eq {requestType : RequestType}
    (transported : TransportedAsSigned requestType builder.contentType)
    (host : Collapsed builder.host) (values : builder.CollapsedValues) (value : Text) :
    builder.addRequestHeaders.buildCanonicalHeaders =
      (signable (clientHeaders requestType builder.contentType
        (builder.addRequestHeaders.headers.set "Authorization".toList value).entries)).insertionSort
          fun left right => left.name ≤ right.name := by
  have owned := ownedCollapsed_addRequestHeaders foreign hosted host values
  have authorization : ∀ other, lower other = lower "Authorization".toList →
      shouldSignHeader other = false := by
    intro other same
    change SentRequest.isSigned (lower other) = false
    rw [same]
    decide
  have kept : (builder.addRequestHeaders.headers.entries.filter fun header =>
      shouldSignHeader header.1).map canonicalHeader =
        signable (builder.addRequestHeaders.headers.set "Authorization".toList value).entries := by
    rw [signable, HTTPHeaders.filter_set value authorization]
    apply List.map_congr_left
    intro header member
    exact canonicalHeader_eq owned (List.mem_filter.mp member).1
  have added : signable (if builder.contentType = octetStream then
      [("Content-Type".toList, octetStream)] else []) =
        if builder.contentType = octetStream then [⟨"content-type".toList, builder.contentType⟩]
          else [] := by
    split
    · rename_i octet
      rw [octet]
      decide
    · rfl
  rw [clientHeaders_eq foreign hosted transported, signable_append, added, ← kept,
    buildCanonicalHeaders]
  congr 1
  change (if !builder.contentType.isEmpty ∧
      lower "content-type".toList ∉ builder.addRequestHeaders.headers.names then _ else _) = _
  rw [if_congr (addsContentType_iff foreign hosted) rfl rfl]
  split
  · rfl
  · rw [List.append_nil]

theorem distinct_clientHeaders {requestType : RequestType}
    (transported : TransportedAsSigned requestType builder.contentType) (value : Text) :
    ((signable (clientHeaders requestType builder.contentType
      (builder.addRequestHeaders.headers.set "Authorization".toList value).entries)).map
        CanonicalHeader.name).Nodup := by
  rw [map_name_signable]
  apply List.Nodup.filter
  rw [clientHeaders_eq foreign hosted transported]
  split
  · rename_i octet
    rw [List.map_append, List.nodup_append]
    refine ⟨HTTPHeaders.distinct _, List.nodup_singleton _, ?_⟩
    rintro _ inside _ added rfl
    have isContentType : lower "content-type".toList ∈
        (builder.addRequestHeaders.headers.set "Authorization".toList value).names := by
      have spelled : lower "Content-Type".toList = lower "content-type".toList := by decide
      rw [List.mem_singleton.mp added] at inside
      exact spelled ▸ inside
    rw [HTTPHeaders.names_set, HTTPHeaders.mem_names_insert,
      contentType_mem_names foreign hosted] at isContentType
    rcases isContentType with isAuthorization | ⟨-, other⟩
    · exact absurd isAuthorization (by decide)
    · exact other octet
  · rw [List.append_nil]
    exact HTTPHeaders.distinct _

/-- The payload hash is a canonical header. -/
theorem payloadHash_mem_signable {requestType : RequestType}
    (transported : TransportedAsSigned requestType builder.contentType)
    (values : builder.CollapsedValues) (value : Text) :
    (⟨"x-amz-content-sha256".toList, builder.payloadHash⟩ : CanonicalHeader) ∈
      signable (clientHeaders requestType builder.contentType
        (builder.addRequestHeaders.headers.set "Authorization".toList value).entries) := by
  have isSet : ("x-amz-content-sha256".toList, builder.payloadHash) ∈ builder.requestHeaders := by
    have given : ("x-amz-content-sha256".toList, builder.payloadHash) ∈
        [("x-amz-date".toList, builder.datetimeNow),
          ("x-amz-content-sha256".toList, builder.payloadHash)] :=
      List.mem_cons_of_mem _ List.mem_cons_self
    simp only [requestHeaders, List.mem_append]
    exact .inl (.inl (.inl (.inl (.inl given))))
  obtain ⟨header, inside, same, isValue⟩ := exists_mem_setHeaders isSet
    (fun other => builder.alone_in_requestHeaders isSet) builder.headers
  have name : lower header.1 = "x-amz-content-sha256".toList := by
    rw [same]
    change lower "x-amz-content-sha256".toList = _
    decide
  have signed : shouldSignHeader header.1 = true := by
    change SentRequest.isSigned (lower header.1) = true
    rw [name]
    decide
  have authorization : ∀ other, lower other = lower "Authorization".toList →
      shouldSignHeader other = false := by
    intro other same
    change SentRequest.isSigned (lower other) = false
    rw [same]
    decide
  rw [clientHeaders_eq foreign hosted transported, signable_append, List.mem_append]
  left
  rw [signable, HTTPHeaders.filter_set value authorization]
  refine List.mem_map.mpr ⟨header, List.mem_filter.mpr ⟨inside, signed⟩, ?_⟩
  rw [name, isValue, collapseBlanks_of_collapsed values.payloadHash]

/-- The canonical request that is signed is the one that is recomputed. -/
theorem canonicalRequest_eq {requestType : RequestType}
    (transported : TransportedAsSigned requestType builder.contentType)
    (host : Collapsed builder.host) (values : builder.CollapsedValues) (value : Text)
    {sent : SentRequest} {encode : Text → Text} (method : sent.method = builder.method)
    (uri : sent.canonicalUri = encode builder.url) (query : sent.canonicalQuery = builder.query)
    {further : List (Text × Text)}
    (unsigned : ∀ header ∈ further, shouldSignHeader header.1 = false)
    (headers : sent.headers.Perm (clientHeaders requestType builder.contentType
      (builder.addRequestHeaders.headers.set "Authorization".toList value).entries ++ further)) :
    buildSignedHeaders builder.addRequestHeaders.buildCanonicalHeaders =
        [';'].intercalate sent.signedNames ∧
      builder.addRequestHeaders.canonicalRequest encode = sent.canonicalRequest := by
  have nothing : signable further = [] := by
    rw [signable, List.filter_eq_nil_iff.mpr, List.map_nil]
    intro header member
    rw [unsigned header member]
    exact Bool.false_ne_true
  have perm := signable_perm headers
  rw [signable_append, nothing, List.append_nil] at perm
  have distinct := distinct_clientHeaders foreign hosted transported value
  have sorted : builder.addRequestHeaders.buildCanonicalHeaders =
      sent.signedNames.map fun name => ⟨name, sent.valueOf name⟩ := by
    rw [buildCanonicalHeaders_eq foreign hosted transported host values value]
    exact SentRequest.sorted_eq perm distinct
  have signedHeaders : buildSignedHeaders builder.addRequestHeaders.buildCanonicalHeaders =
      [';'].intercalate sent.signedNames := by
    rw [buildSignedHeaders, sorted, List.map_map]
    congr 1
    exact List.map_id _
  have payloadHash : sent.valueOf "x-amz-content-sha256".toList = builder.payloadHash :=
    SentRequest.valueOf_eq perm distinct
      (payloadHash_mem_signable foreign hosted transported values value)
  refine ⟨signedHeaders, ?_⟩
  have lines (names : List Text) :
      (names.flatMap fun name => '\n' :: (name ++ ':' :: sent.valueOf name)) ++ ['\n'] =
        '\n' :: names.flatMap fun name => name ++ ":".toList ++ sent.valueOf name ++ "\n".toList := by
    induction names with
    | nil => rfl
    | cons name names inductionHypothesis =>
        rw [List.flatMap_cons, List.append_assoc, inductionHypothesis, List.flatMap_cons]
        simp
  have laidOut := lines sent.signedNames
  have byName : (sent.signedNames.map fun name =>
      (⟨name, sent.valueOf name⟩ : CanonicalHeader)).flatMap
        (fun header => '\n' :: (header.name ++ ':' :: header.value)) =
      sent.signedNames.flatMap fun name => '\n' :: (name ++ ':' :: sent.valueOf name) :=
    List.flatMap_map ..
  rw [canonicalRequest, signedHeaders, buildCanonicalRequest, sorted, byName,
    SentRequest.canonicalRequest, method, uri, query, payloadHash]
  change builder.method ++ '\n' :: (encode builder.url ++ '\n' :: (builder.query ++ _ ++ _ ++ _ ++
    '\n' :: builder.payloadHash)) = _
  have regrouped := congrArg (· ++ '\n' :: ([';'].intercalate sent.signedNames ++
    '\n' :: builder.payloadHash)) laidOut
  simp only [String.reduceToList, List.append_assoc, List.cons_append, List.nil_append] at regrouped ⊢
  rw [regrouped]

end Signed

end S3HeaderBuilder

/-! ## Requests of a session -/

/-- What the request of a session is made from. -/
structure RequestInputs where
  now : Timestamp
  encryptionUtil : EncryptionUtil
  captured : S3RequestSnapshot
  s3Url : Text
  requestType : RequestType
  target : S3RequestTarget
  parameters : ParsedS3Url → List (Text × Text)
  payload : Text
  contentType : Text
  contentMd5 : Text

namespace RequestInputs

def requestData (encodePath encodeComponent : Text → Text) (inputs : RequestInputs) :
    Except ErrorData S3RequestData :=
  createRequestData encodePath inputs.now inputs.encryptionUtil inputs.captured inputs.s3Url
    inputs.requestType inputs.target
    (fun parsedUrl => .ofParameters encodeComponent (inputs.parameters parsedUrl))
    (getPayloadHash inputs.encryptionUtil inputs.payload) inputs.contentType inputs.contentMd5

def builder (encodeComponent : Text → Text) (inputs : RequestInputs) (parsedUrl : ParsedS3Url)
    (headers : HTTPHeaders) : S3HeaderBuilder :=
  headerBuilder inputs.encryptionUtil (addressed parsedUrl inputs.target)
    (.ofParameters encodeComponent (inputs.parameters parsedUrl)) inputs.requestType
    inputs.captured.authParams [] [] (getPayloadHash inputs.encryptionUtil inputs.payload)
    inputs.contentType inputs.contentMd5 headers

/-- The signer of a request, with the headers that it signs. -/
def signer (encodeComponent : Text → Text) (inputs : RequestInputs) :
    Except ErrorData S3HeaderBuilder := do
  let parsedUrl ← parse inputs.s3Url inputs.captured.authParams
  let headers ← createConfiguredS3Headers inputs.captured.params.extraHeaders
    inputs.captured.params.userAgent
  pure ((inputs.builder encodeComponent parsedUrl headers).prepared inputs.now)

/-- The values that HTTPFS puts into headers have no blanks to collapse. -/
structure CollapsedValues (inputs : RequestInputs) : Prop where
  host : ∀ parsedUrl, parse inputs.s3Url inputs.captured.authParams = .ok parsedUrl →
    Collapsed parsedUrl.host
  sessionToken : Collapsed inputs.captured.authParams.sessionToken
  kmsKeyId : Collapsed inputs.captured.authParams.kmsKeyId
  contentType : Collapsed inputs.contentType
  contentMd5 : Collapsed inputs.contentMd5

end RequestInputs

/-- A request is sent as it was signed: a verifier recomputes its canonical request, and
the signature that is sent is the one of that. -/
structure SignedAsSent (encodePath : Text → Text) (signer : S3HeaderBuilder)
    (sent : SentRequest) : Prop where
  canonicalRequest : signer.canonicalRequest encodePath = sent.canonicalRequest
  authorization : ∃ header ∈ sent.headers, lower header.1 = lower "Authorization".toList ∧
    header.2 = signer.authorization ([';'].intercalate sent.signedNames)
      (signer.createSignature sent.canonicalRequest)

/-- The request URL comes apart into the path and the query that were signed. -/
theorem canonicalUri_eq {encodePath : Text → Text} (encoding : PathEncoding encodePath)
    {parsedUrl : ParsedS3Url} (addressable : Addressable parsedUrl) {httpQueryString : Text}
    {sent : SentRequest} (url : sent.url = getHttpUrl encodePath parsedUrl httpQueryString) :
    sent.canonicalUri = encodePath parsedUrl.path ∧ sent.queryString = httpQueryString := by
  have free := encoding.noQuestion parsedUrl.path
  rw [SentRequest.canonicalUri, SentRequest.queryString, url,
    decomposeUrl_getHttpUrl encoding addressable]
  dsimp only
  rcases queryPart_cases httpQueryString with isEmpty | isQuery
  · have dropped : (encodePath parsedUrl.path).dropWhile (· ≠ '?') = [] := by
      rw [List.dropWhile_eq_nil_iff]
      intro byte member
      exact decide_eq_true fun same : byte = '?' => free (same ▸ member)
    rw [isEmpty, List.append_nil, takeWhile_ne_of_not_mem free, dropped,
      queryPart_eq_nil_iff.mp isEmpty]
    exact ⟨rfl, rfl⟩
  · rw [isQuery, takeWhile_ne_append free, dropWhile_ne_append free]
    exact ⟨rfl, rfl⟩

theorem canonicalQuery_eq {encodeComponent : Text → Text}
    (separatorFree : ∀ text, '&' ∉ encodeComponent text ∧ '=' ∉ encodeComponent text)
    {parameters : List (Text × Text)} {sent : SentRequest}
    (query : sent.queryString = wireQuery encodeComponent parameters) :
    sent.canonicalQuery = wireQuery encodeComponent parameters := by
  rw [SentRequest.canonicalQuery, query, queryPairs_wireQuery separatorFree,
    sortPairs_eq_of_perm (sortPairs_perm _), ← wireQuery_eq_intercalate]

/-- The parts that a request with credentials is made of. -/
theorem RequestInputs.exists_parts {encodePath encodeComponent : Text → Text}
    {inputs : RequestInputs} {requestData : S3RequestData}
    (creates : inputs.requestData encodePath encodeComponent = .ok requestData)
    (signs : getAuthType inputs.captured.authParams = .sigV4) :
    ∃ parsedUrl configured, parse inputs.s3Url inputs.captured.authParams = .ok parsedUrl ∧
      createConfiguredS3Headers inputs.captured.params.extraHeaders
        inputs.captured.params.userAgent = .ok configured ∧
      inputs.signer encodeComponent =
        .ok ((inputs.builder encodeComponent parsedUrl configured).prepared inputs.now) ∧
      requestData.requestType = inputs.requestType ∧
      requestData.httpUrl = getHttpUrl encodePath (addressed parsedUrl inputs.target)
        (wireQuery encodeComponent (inputs.parameters parsedUrl)) ∧
      requestData.headers =
        ((inputs.builder encodeComponent parsedUrl configured).create encodePath
          inputs.now).entries := by
  obtain ⟨parsedUrl, parses, creates⟩ := bind_eq_ok_iff.mp creates
  obtain ⟨headers, createsHeaders, creates⟩ := bind_eq_ok_iff.mp creates
  obtain ⟨configured, configures, createsHeaders⟩ := bind_eq_ok_iff.mp createsHeaders
  obtain rfl := Except.ok.inj creates
  rw [signs] at createsHeaders
  obtain rfl := Except.ok.inj createsHeaders
  change createConfiguredS3Headers inputs.captured.params.extraHeaders
    inputs.captured.params.userAgent = .ok configured at configures
  refine ⟨parsedUrl, configured, parses, configures, ?_, rfl, rfl, rfl⟩
  rw [RequestInputs.signer, parses]
  change createConfiguredS3Headers inputs.captured.params.extraHeaders
    inputs.captured.params.userAgent >>= _ = _
  rw [configures]
  rfl

theorem addressed_host (parsedUrl : ParsedS3Url) (target : S3RequestTarget) :
    (addressed parsedUrl target).host = parsedUrl.host := by
  cases target <;> rfl

/-- A request for one key, with a header of the user and a body. -/
def plainInputs (requestType : RequestType) (contentType : Text) : RequestInputs where
  now := ⟨2026, 7, 30, 12, 0, 0⟩
  encryptionUtil := ⟨id, fun message secret => secret ++ message⟩
  captured :=
    { params :=
        { extraHeaders := ⟨[("X-Amz-Meta-Color".toList, " light  blue".toList)],
            List.nodup_singleton _⟩ }
      authParams :=
        { accessKeyId := "key".toList, secretAccessKey := "secret".toList,
          region := "eu-west-1".toList, endpoint := "s3.eu-west-1.amazonaws.com".toList }
      refreshPath := [] }
  s3Url := "s3://bucket/table.csv".toList
  requestType
  target := .object
  parameters := fun _ => [("uploads".toList, [])]
  payload := "rows".toList
  contentType
  contentMd5 := []

/-- What a client sends for a request. -/
def sentRequest (requestData : S3RequestData) (contentType : Text) : SentRequest where
  method := getRequestMethod requestData.requestType
  url := requestData.httpUrl
  headers := clientHeaders requestData.requestType contentType requestData.headers

theorem sends_sentRequest (requestData : S3RequestData) (contentType : Text) :
    Sends requestData contentType (sentRequest requestData contentType) where
  method := rfl
  url := rfl
  headers := ⟨[], fun _ impossible => absurd impossible List.not_mem_nil, by
    rw [List.append_nil]
    exact List.Perm.refl _⟩

/-- Whether the canonical request of a request is the one that its receiver makes. -/
def recomputes (inputs : RequestInputs) : Except ErrorData Bool := do
  let requestData ← inputs.requestData Percent.encode Percent.encode
  let signer ← inputs.signer Percent.encode
  pure (signer.canonicalRequest Percent.encode ==
    (sentRequest requestData inputs.contentType).canonicalRequest)

theorem collapsedValues_plainInputs (requestType : RequestType) {contentType : Text}
    (collapsed : Collapsed contentType) : (plainInputs requestType contentType).CollapsedValues where
  host := by
    have host : (parse "s3://bucket/table.csv".toList
        (plainInputs requestType contentType).captured.authParams).map ParsedS3Url.host =
          .ok "bucket.s3.eu-west-1.amazonaws.com".toList := by
      change (parse "s3://bucket/table.csv".toList
        { accessKeyId := "key".toList, secretAccessKey := "secret".toList,
          region := "eu-west-1".toList,
          endpoint := "s3.eu-west-1.amazonaws.com".toList }).map ParsedS3Url.host = _
      decide
    intro parsedUrl parses
    change parse "s3://bucket/table.csv".toList _ = .ok parsedUrl at parses
    rw [parses] at host
    rw [Except.ok.inj host]
    exact collapsed_of_blankFree (by decide)
  sessionToken := collapsed_nil
  kmsKeyId := collapsed_nil
  contentType := collapsed
  contentMd5 := collapsed_nil

theorem exists_of_recomputes {inputs : RequestInputs} {same : Bool}
    (recomputed : recomputes inputs = .ok same) :
    ∃ requestData signer, inputs.requestData Percent.encode Percent.encode = .ok requestData ∧
      inputs.signer Percent.encode = .ok signer ∧
      (signer.canonicalRequest Percent.encode ==
        (sentRequest requestData inputs.contentType).canonicalRequest) = same := by
  obtain ⟨requestData, creates, recomputed⟩ := bind_eq_ok_iff.mp recomputed
  obtain ⟨signer, signs, recomputed⟩ := bind_eq_ok_iff.mp recomputed
  exact ⟨requestData, signer, creates, signs, Except.ok.inj recomputed⟩

/-- What is sent for plain inputs that are signed is not what was signed. -/
def NotSentAsSigned (requestType : RequestType) (contentType : Text) : Prop :=
  let inputs := plainInputs requestType contentType
  getAuthType inputs.captured.authParams = .sigV4 ∧ inputs.CollapsedValues ∧
    ∃ requestData signer sent,
      inputs.requestData Percent.encode Percent.encode = .ok requestData ∧
      inputs.signer Percent.encode = .ok signer ∧
      Sends requestData inputs.contentType sent ∧
      ¬ SignedAsSent Percent.encode signer sent

theorem notSentAsSigned_of_recomputes {requestType : RequestType} {contentType : Text}
    (collapsed : Collapsed contentType)
    (recomputed : recomputes (plainInputs requestType contentType) = .ok false) :
    NotSentAsSigned requestType contentType := by
  obtain ⟨requestData, signer, creates, signs, differs⟩ := exists_of_recomputes recomputed
  refine ⟨rfl, collapsedValues_plainInputs requestType collapsed, requestData, signer, _, creates,
    signs, sends_sentRequest requestData contentType, ?_⟩
  intro signed
  rw [beq_eq_false_iff_ne] at differs
  exact differs signed.canonicalRequest

end Httpfs.S3
