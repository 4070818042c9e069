import Httpfs.Http.CurlClient
import Httpfs.S3.UrlFields
import Httpfs.Text.Percent

/-!
# Where the request for a URL goes

The URL of a request is made of the host, the encoded path and the query string of
a parsed URL, taken apart at the slash behind the authority, and put together again
by the client.  What arrives is what was signed unless the client shortens it.
-/

namespace Httpfs.S3

open Http Text
open Httpfs.Http.Curl

/-! ## URL encoding -/

/-- The query string as it stands in a URL. -/
def queryPart (httpQueryString : Text) : Text :=
  if httpQueryString.isEmpty then [] else '?' :: httpQueryString

theorem queryPart_cases (httpQueryString : Text) :
    queryPart httpQueryString = [] ∨ queryPart httpQueryString = '?' :: httpQueryString := by
  unfold queryPart
  split
  · exact .inl rfl
  · exact .inr rfl

theorem queryPart_eq_nil_iff {httpQueryString : Text} :
    queryPart httpQueryString = [] ↔ httpQueryString = [] := by
  simp [queryPart]

/-- What is relied on of the URL encoding of a path: bytes are encoded one by one, a
slash as itself and nothing else with a slash, never with a question mark, and
different texts differently. -/
structure PathEncoding (encode : Text → Text) : Prop where
  append : ∀ front back, encode (front ++ back) = encode front ++ encode back
  slash : encode "/".toList = "/".toList
  noSlash : ∀ byte, byte ≠ '/' → '/' ∉ encode [byte]
  noQuestion : ∀ text, '?' ∉ encode text
  injective : Function.Injective encode

namespace PathEncoding

variable {encode : Text → Text} (encoding : PathEncoding encode)

include encoding

theorem nil : encode [] = [] := by
  have doubled := encoding.append [] []
  rw [List.append_nil] at doubled
  exact List.append_right_eq_self.mp doubled.symm

theorem cons_slash (rest : Text) : encode ('/' :: rest) = '/' :: encode rest := by
  have split := encoding.append "/".toList rest
  rw [encoding.slash] at split
  exact split

theorem eq_nil_iff {text : Text} : encode text = [] ↔ text = [] := by
  constructor
  · intro empty
    apply encoding.injective
    rw [empty, encoding.nil]
  · rintro rfl
    exact encoding.nil

/-- An encoded text begins with a slash if the text does. -/
theorem head_slash_iff {text rest : Text} : encode text = '/' :: rest ↔
    ∃ back, text = '/' :: back ∧ encode back = rest := by
  constructor
  · intro starts
    cases text with
    | nil =>
        rw [encoding.nil] at starts
        contradiction
    | cons byte back =>
        by_cases slash : byte = '/'
        · subst slash
          rw [encoding.cons_slash] at starts
          exact ⟨back, rfl, (List.cons.inj starts).2⟩
        · exfalso
          have split := encoding.append [byte] back
          rw [List.singleton_append, starts] at split
          cases first : encode [byte] with
          | nil => exact List.cons_ne_nil _ _ (encoding.eq_nil_iff.mp first)
          | cons head tail =>
              rw [first, List.cons_append] at split
              apply encoding.noSlash byte slash
              rw [first, ← (List.cons.inj split).1]
              exact List.mem_cons_self
  · rintro ⟨back, rfl, rfl⟩
    exact encoding.cons_slash back

/-- The client keeps an encoded path with its query string, unless the path begins
with two slashes and is more than these. -/
theorem not_shortened_iff {rest httpQueryString : Text} :
    ¬ Shortened (encode ('/' :: rest) ++ queryPart httpQueryString) ↔
      ∀ back, rest = '/' :: back → back = [] ∧ httpQueryString = [] := by
  have notDotted : startsWith (encode ('/' :: rest) ++ queryPart httpQueryString)
      "./".toList = false := by
    rw [encoding.cons_slash]
    rfl
  constructor
  · rintro kept back rfl
    rw [Shortened, encoding.cons_slash, encoding.cons_slash] at kept
    have short : ('/' :: '/' :: encode back ++ queryPart httpQueryString).length ≤ 2 := by
      by_contra long
      exact kept ⟨Nat.lt_of_not_le long, .inl (startsWith_append "//".toList _)⟩
    have none : (encode back ++ queryPart httpQueryString).length = 0 := by
      simpa using short
    rcases List.append_eq_nil_iff.mp (List.length_eq_zero_iff.mp none) with ⟨noBack, noQuery⟩
    exact ⟨encoding.eq_nil_iff.mp noBack, queryPart_eq_nil_iff.mp noQuery⟩
  · rintro alone ⟨long, doubled | dotted⟩
    · rcases startsWith_iff.mp doubled with ⟨tail, eq⟩
      rw [encoding.cons_slash] at eq
      have next : '/' :: tail = encode rest ++ queryPart httpQueryString := (List.cons.inj eq).2
      have starts : ∃ inside, encode rest = '/' :: inside := by
        cases encoded : encode rest with
        | nil =>
            exfalso
            rw [encoded, List.nil_append] at next
            rcases queryPart_cases httpQueryString with isEmpty | isQuery
            · rw [isEmpty] at next
              contradiction
            · rw [isQuery] at next
              exact absurd (List.cons.inj next).1 (by decide)
        | cons head inside =>
            rw [encoded] at next
            exact ⟨inside, by rw [(List.cons.inj next).1]⟩
      rcases starts with ⟨inside, starts⟩
      rcases encoding.head_slash_iff.mp starts with ⟨back, rfl, -⟩
      rcases alone back rfl with ⟨rfl, rfl⟩
      rw [encoding.cons_slash, encoding.cons_slash, encoding.nil] at long
      contradiction
    · rw [notDotted] at dotted
      contradiction

end PathEncoding

/-! ## From a parsed URL to a request -/

def getHttpUrl (encode : Text → Text) (parsedUrl : ParsedS3Url) (httpQueryString : Text) : Text :=
  let fullUrl := parsedUrl.httpProto ++ parsedUrl.host ++ encode parsedUrl.path
  if !httpQueryString.isEmpty then fullUrl ++ "?".toList ++ httpQueryString else fullUrl

/-- The parsed URL as a request addresses it: the object or its bucket. -/
def addressed (parsedUrl : ParsedS3Url) : S3RequestTarget → ParsedS3Url
  | .object => parsedUrl
  | .bucket => { parsedUrl with path := getBucketPath parsedUrl }

/-- How a URL is taken apart below: at the first slash behind the authority. -/
def decomposeUrl (url : Text) : Text × Text :=
  let authority := ((find "://".toList url).map (· + 3)).getD 0
  match findFrom '/' url authority with
  | none => (url, "/".toList)
  | some slashPos => (substr url 0 slashPos, substrFrom url slashPos)

/-- The request of the curl client for a parsed URL. -/
def curlRequest (encode : Text → Text) (parsedUrl : ParsedS3Url) (httpQueryString : Text)
    (requestType : RequestType) (sendPostAsGetRequest : Bool) : CurlRequest :=
  let (protoHostPort, path) := decomposeUrl (getHttpUrl encode parsedUrl httpQueryString)
  (HTTPFSCurlClient.connect protoHostPort).send requestType path sendPostAsGetRequest

/-- A parsed URL whose parts do not run into each other. -/
structure Addressable (parsedUrl : ParsedS3Url) : Prop where
  proto : parsedUrl.httpProto = "https://".toList ∨ parsedUrl.httpProto = "http://".toList
  host : '/' ∉ parsedUrl.host
  path : ∃ rest, parsedUrl.path = '/' :: rest

section Encoded

variable {encode : Text → Text} (encoding : PathEncoding encode)

include encoding

/-- The URL of a request comes apart into what it was made of. -/
theorem decomposeUrl_getHttpUrl {parsedUrl : ParsedS3Url} (addressable : Addressable parsedUrl)
    (httpQueryString : Text) :
    decomposeUrl (getHttpUrl encode parsedUrl httpQueryString) =
      (parsedUrl.httpProto ++ parsedUrl.host,
        encode parsedUrl.path ++ queryPart httpQueryString) := by
  rcases addressable.path with ⟨rest, path⟩
  have whole : getHttpUrl encode parsedUrl httpQueryString =
      parsedUrl.httpProto ++ parsedUrl.host ++
        '/' :: (encode rest ++ queryPart httpQueryString) := by
    rw [getHttpUrl, path, encoding.cons_slash, queryPart]
    cases httpQueryString with
    | nil => simp
    | cons byte query => simp
  have authority : ((find "://".toList (getHttpUrl encode parsedUrl httpQueryString)).map
      (· + 3)).getD 0 = parsedUrl.httpProto.length := by
    rw [whole, List.append_assoc]
    rcases addressable.proto with proto | proto
    · have found : find "://".toList ("https".toList ++ "://".toList ++ (parsedUrl.host ++
          '/' :: (encode rest ++ queryPart httpQueryString))) = some "https".toList.length :=
        find_append (by decide)
      rw [proto]
      exact congrArg (fun position => (position.map (· + 3)).getD 0) found
    · have found : find "://".toList ("http".toList ++ "://".toList ++ (parsedUrl.host ++
          '/' :: (encode rest ++ queryPart httpQueryString))) = some "http".toList.length :=
        find_append (by decide)
      rw [proto]
      exact congrArg (fun position => (position.map (· + 3)).getD 0) found
  rw [decomposeUrl, authority, whole, findFrom_append _ addressable.host, path,
    encoding.cons_slash]
  dsimp only
  rw [← List.length_append, substr_zero_append, substrFrom_append]
  rfl

/-- The client asks the host for the encoded path, as far as it keeps that. -/
theorem curlRequest_eq {parsedUrl : ParsedS3Url} (addressable : Addressable parsedUrl)
    (httpQueryString : Text) (requestType : RequestType) (sendPostAsGetRequest : Bool) :
    (curlRequest encode parsedUrl httpQueryString requestType sendPostAsGetRequest).baseUrl =
        parsedUrl.httpProto ++ parsedUrl.host ∧
      (curlRequest encode parsedUrl httpQueryString requestType sendPostAsGetRequest).path =
        normalizePathToBeAdded (encode parsedUrl.path ++ queryPart httpQueryString) := by
  have kept : normalizePathToBeAdded (parsedUrl.httpProto ++ parsedUrl.host) =
      parsedUrl.httpProto ++ parsedUrl.host := by
    rw [normalizePathToBeAdded_eq_self_iff]
    rintro ⟨-, starts⟩
    rcases addressable.proto with proto | proto
    · rw [proto] at starts
      rcases starts with starts | starts
      · contradiction
      · contradiction
    · rw [proto] at starts
      rcases starts with starts | starts
      · contradiction
      · contradiction
  rw [curlRequest, decomposeUrl_getHttpUrl encoding addressable]
  dsimp only
  rcases (HTTPFSCurlClient.connect (parsedUrl.httpProto ++ parsedUrl.host)).send_eq requestType
    (encode parsedUrl.path ++ queryPart httpQueryString) sendPostAsGetRequest with ⟨base, path⟩
  exact ⟨base.trans kept, path⟩

end Encoded

/-- A request arrives as it was signed: at the host, for the encoded path. -/
def SentAsSigned (encode : Text → Text) (parsedUrl : ParsedS3Url) (httpQueryString : Text)
    (request : CurlRequest) : Prop :=
  request.baseUrl = parsedUrl.httpProto ++ parsedUrl.host ∧
    request.path = encode parsedUrl.path ++ queryPart httpQueryString

/-- The path does not begin with two slashes, or is nothing but these. -/
def KeptPath (parsedUrl : ParsedS3Url) (httpQueryString : Text) : Prop :=
  startsWith parsedUrl.path "//".toList = true →
    parsedUrl.path = "//".toList ∧ httpQueryString = []

section Encoded

variable {encode : Text → Text} (encoding : PathEncoding encode)

include encoding

theorem sentAsSigned_iff {parsedUrl : ParsedS3Url} (addressable : Addressable parsedUrl)
    (httpQueryString : Text) (requestType : RequestType) (sendPostAsGetRequest : Bool) :
    SentAsSigned encode parsedUrl httpQueryString
        (curlRequest encode parsedUrl httpQueryString requestType sendPostAsGetRequest) ↔
      KeptPath parsedUrl httpQueryString := by
  rcases curlRequest_eq encoding addressable httpQueryString requestType sendPostAsGetRequest with
    ⟨base, path⟩
  rcases addressable.path with ⟨rest, isPath⟩
  rw [SentAsSigned, base, path, normalizePathToBeAdded_eq_self_iff, KeptPath, isPath,
    encoding.not_shortened_iff]
  constructor
  · rintro ⟨-, alone⟩ starts
    rcases startsWith_iff.mp starts with ⟨back, eq⟩
    have isRest : rest = '/' :: back := (List.cons.inj eq).2.symm
    rcases alone back isRest with ⟨rfl, noQuery⟩
    exact ⟨by rw [isRest]; rfl, noQuery⟩
  · intro kept
    refine ⟨rfl, ?_⟩
    rintro back rfl
    rcases kept (startsWith_append "//".toList back) with ⟨whole, noQuery⟩
    exact ⟨(List.cons.inj (List.cons.inj whole).2).2, noQuery⟩

/-- The host and path of a request that arrives as it was signed. -/
theorem target_of_sentAsSigned {parsedUrl : ParsedS3Url} {httpQueryString : Text}
    {request : CurlRequest}
    (sent : SentAsSigned encode parsedUrl httpQueryString request) :
    request.target = (parsedUrl.httpProto ++ parsedUrl.host, encode parsedUrl.path) := by
  rw [CurlRequest.target, sent.1, sent.2, takeWhile_append (encoding.noQuestion _)]
  rcases queryPart_cases httpQueryString with isEmpty | isQuery
  · rw [isEmpty, List.takeWhile_nil, List.append_nil]
  · rw [isQuery, List.takeWhile_cons_of_neg (by decide), List.append_nil]

end Encoded

/-! ## What a URL is addressed by -/

theorem splitEndpoint_cases (endpoint : Text) :
    '/' ∉ (splitEndpoint endpoint).1 ∧
      ((splitEndpoint endpoint).2 = [] ∨ ∃ back, (splitEndpoint endpoint).2 = '/' :: back) := by
  by_cases slash : '/' ∈ endpoint
  · rcases List.eq_append_cons_of_mem slash with ⟨front, back, rfl, free⟩
    rw [splitEndpoint, findFirstOf_singleton_append free]
    dsimp only
    rw [substr_zero_append, substrFrom_append]
    exact ⟨free, .inr ⟨back, rfl⟩⟩
  · rw [splitEndpoint, findFirstOf_singleton_eq_none slash]
    exact ⟨slash, .inl rfl⟩

/-- The URL styles that have the bucket in the host or in the path. -/
def NamesBucket (params : S3AuthParams) : Prop :=
  params.urlStyle = [] ∨ params.urlStyle = "vhost".toList ∨ params.urlStyle = "virtual".toList ∨
    params.urlStyle = "path".toList

/-- A bucket stands in the path, in the host, or nowhere. -/
theorem addressBucket_cases (params : S3AuthParams) (bucket : Text) :
    (NamesBucket params ∧ addressBucket params bucket =
      ((splitEndpoint params.endpoint).1,
        (splitEndpoint params.endpoint).2 ++ '/' :: bucket)) ∨
    (NamesBucket params ∧ addressBucket params bucket =
      (bucket ++ '.' :: (splitEndpoint params.endpoint).1, (splitEndpoint params.endpoint).2)) ∨
    (¬ NamesBucket params ∧ addressBucket params bucket =
      ((splitEndpoint params.endpoint).1, (splitEndpoint params.endpoint).2)) := by
  by_cases path : params.urlStyle = "path".toList
  · refine .inl ⟨.inr (.inr (.inr path)), ?_⟩
    simp [addressBucket, path]
  · by_cases vhost : params.urlStyle = [] ∨ params.urlStyle = "vhost".toList ∨
        params.urlStyle = "virtual".toList
    · have names : NamesBucket params := by
        rcases vhost with empty | host | virtual
        · exact .inl empty
        · exact .inr (.inl host)
        · exact .inr (.inr (.inl virtual))
      have isVhost : (params.urlStyle.isEmpty || params.urlStyle == "vhost".toList ||
          params.urlStyle == "virtual".toList) = true := by
        simpa [or_assoc] using vhost
      have notPath : (params.urlStyle == "path".toList) = false := by
        simpa using path
      simp only [addressBucket, isVhost, notPath, Bool.false_or, Bool.true_and]
      split
      · exact .inl ⟨names, by simp⟩
      · exact .inr (.inl ⟨names, by simp⟩)
    · refine .inr (.inr ⟨?_, ?_⟩)
      · rintro (empty | host | virtual | isPath)
        · exact vhost (.inl empty)
        · exact vhost (.inr (.inl host))
        · exact vhost (.inr (.inr virtual))
        · exact path isPath
      · have notVhost : (params.urlStyle.isEmpty || params.urlStyle == "vhost".toList ||
            params.urlStyle == "virtual".toList) = false := by
          rw [← Bool.not_eq_true]
          intro isVhost
          exact vhost (by simpa [or_assoc] using isVhost)
        have notPath : (params.urlStyle == "path".toList) = false := by
          simpa using path
        simp only [addressBucket, notVhost, notPath, Bool.false_or, Bool.false_and,
          Bool.false_eq_true, if_false]

/-- What a parsed URL is made of, in either URL mode. -/
theorem parse_address {url : Text} {params : S3AuthParams} {parsedUrl : ParsedS3Url}
    (parses : parse url params = .ok parsedUrl) :
    '/' ∉ parsedUrl.bucket ∧ parsedUrl.bucket ≠ [] ∧
      parsedUrl.httpProto = (if params.useSsl then "https://".toList else "http://".toList) ∧
      parsedUrl.host = (addressBucket params parsedUrl.bucket).1 ∧
      parsedUrl.path = (addressBucket params parsedUrl.bucket).2 ++ '/' :: parsedUrl.key := by
  rcases bind_eq_ok_iff.mp parses with ⟨urlPrefix, -, parses⟩
  change (match findFrom '/' url (authorityStart url) with
    | none => _
    | some slashPos => _) = _ at parses
  cases slash : findFrom '/' url (authorityStart url) with
  | none =>
      rw [slash] at parses
      contradiction
  | some slashPos =>
      rcases exists_cut_of_findFrom slash with
        ⟨front, bucket, rest, whole, frontLength, free, position, bucketIs⟩
      have slashLength : slashPos = (front ++ bucket).length := by
        rw [position, List.length_append, frontLength]
      -- The key keeps its leading slash, with the query string cut off or not.
      have slashKey : ∃ key, (if params.s3UrlCompatibilityMode then ([], url, substrFrom url slashPos)
          else splitQuery url slashPos).2.2 = '/' :: key := by
        rw [slashLength, whole]
        split
        · exact ⟨rest, substrFrom_append _ _⟩
        · exact exists_key_of_splitQuery _ _
      rw [slash] at parses
      unfold authorityStart at bucketIs
      simp only [bucketIs] at parses
      split at parses
      · contradiction
      · rename_i nonempty
        generalize (if params.s3UrlCompatibilityMode then ([], url, substrFrom url slashPos)
          else splitQuery url slashPos) = parts at parses slashKey
        rcases parts with ⟨queryParam, trimmedS3Url, keyPart⟩
        rcases slashKey with ⟨key, rfl⟩
        cases parses
        exact ⟨free, by simpa using nonempty, rfl, rfl, rfl⟩

/-- The host of a bucket and the beginning of its path. -/
theorem addressBucket_slashes (params : S3AuthParams) {bucket : Text} (free : '/' ∉ bucket) :
    '/' ∉ (addressBucket params bucket).1 ∧
      ((addressBucket params bucket).2 = [] ∨ ∃ back, (addressBucket params bucket).2 = '/' :: back) := by
  rcases splitEndpoint_cases params.endpoint with ⟨hostFree, subPath⟩
  rcases addressBucket_cases params bucket with ⟨-, eq⟩ | ⟨-, eq⟩ | ⟨-, eq⟩
  · rw [eq]
    refine ⟨hostFree, .inr ?_⟩
    rcases subPath with empty | ⟨back, eq⟩
    · exact ⟨bucket, by rw [empty, List.nil_append]⟩
    · exact ⟨back ++ '/' :: bucket, by rw [eq, List.cons_append]⟩
  · rw [eq]
    refine ⟨?_, subPath⟩
    simp [free, hostFree]
  · rw [eq]
    exact ⟨hostFree, subPath⟩

theorem addressable_of_parse {url : Text} {params : S3AuthParams} {parsedUrl : ParsedS3Url}
    (parses : parse url params = .ok parsedUrl) (target : S3RequestTarget) :
    Addressable (addressed parsedUrl target) := by
  rcases parse_address parses with ⟨free, -, proto, host, path⟩
  rcases addressBucket_slashes params free with ⟨hostFree, front⟩
  have isProto : parsedUrl.httpProto = "https://".toList ∨
      parsedUrl.httpProto = "http://".toList := by
    rw [proto]
    split
    · exact .inl rfl
    · exact .inr rfl
  have start (rest : Text) : ∃ back, (addressBucket params parsedUrl.bucket).2 ++ '/' :: rest =
      '/' :: back := by
    rcases front with empty | ⟨back, eq⟩
    · exact ⟨rest, by rw [empty, List.nil_append]⟩
    · exact ⟨back ++ '/' :: rest, by rw [eq, List.cons_append]⟩
  cases target with
  | object =>
      refine ⟨isProto, host ▸ hostFree, ?_⟩
      rw [addressed, path]
      exact start _
  | bucket =>
      refine ⟨isProto, host ▸ hostFree, ?_⟩
      have cut : substr parsedUrl.path 0 (parsedUrl.path.length - parsedUrl.key.length) =
          (addressBucket params parsedUrl.bucket).2 ++ "/".toList := by
        have whole : parsedUrl.path =
            ((addressBucket params parsedUrl.bucket).2 ++ "/".toList) ++ parsedUrl.key := by
          rw [path, List.append_assoc]
          rfl
        rw [whole, List.length_append, Nat.add_sub_cancel, substr_zero_append]
      change ∃ rest, getBucketPath parsedUrl = '/' :: rest
      rw [getBucketPath, cut]
      split
      · exact ⟨[], rfl⟩
      · exact start []

/-- Requests that differ in bucket or key, or in the path of the endpoint alone, do
not meet at one host and path. -/
theorem same_address {params other : S3AuthParams} {bucket otherBucket key otherKey : Text}
    (sameHost : (splitEndpoint other.endpoint).1 = (splitEndpoint params.endpoint).1)
    (sameStyle : other.urlStyle = params.urlStyle) (free : '/' ∉ bucket)
    (otherFree : '/' ∉ otherBucket)
    (hosts : (addressBucket params bucket).1 = (addressBucket other otherBucket).1)
    (paths : (addressBucket params bucket).2 ++ '/' :: key =
      (addressBucket other otherBucket).2 ++ '/' :: otherKey) :
    ((splitEndpoint params.endpoint).2 = (splitEndpoint other.endpoint).2 →
        key = otherKey ∧ (NamesBucket params → bucket = otherBucket)) ∧
      (bucket = otherBucket → key = otherKey →
        (splitEndpoint params.endpoint).2 = (splitEndpoint other.endpoint).2) := by
  have sameNames : NamesBucket other ↔ NamesBucket params := by
    rw [NamesBucket, NamesBucket, sameStyle]
  -- A bucket in the host makes it longer than the host of the endpoint.
  have longer (text host : Text) : host ≠ text ++ '.' :: host := by
    intro same
    have length := congrArg List.length same
    rw [List.length_append, List.length_cons] at length
    omega
  rcases addressBucket_cases params bucket with ⟨names, eq⟩ | ⟨names, eq⟩ | ⟨unnamed, eq⟩
  · rcases addressBucket_cases other otherBucket with ⟨-, otherEq⟩ | ⟨-, otherEq⟩ | ⟨otherUnnamed, -⟩
    · rw [eq, otherEq] at paths
      simp only [List.append_assoc, List.cons_append] at paths
      constructor
      · intro sameSub
        rw [sameSub] at paths
        have rest := (List.cons.inj (List.append_cancel_left paths)).2
        rcases (append_cons_inj free otherFree).mp rest with ⟨sameBucket, sameKey⟩
        exact ⟨sameKey, fun _ => sameBucket⟩
      · rintro rfl rfl
        exact List.append_cancel_right paths
    · rw [eq, otherEq, sameHost] at hosts
      exact absurd hosts (longer _ _)
    · exact absurd (sameNames.mpr names) otherUnnamed
  · rcases addressBucket_cases other otherBucket with ⟨-, otherEq⟩ | ⟨-, otherEq⟩ | ⟨otherUnnamed, -⟩
    · rw [eq, otherEq, sameHost] at hosts
      exact absurd hosts.symm (longer _ _)
    · rw [eq, otherEq] at paths
      rw [eq, otherEq, sameHost] at hosts
      constructor
      · intro sameSub
        rw [sameSub] at paths
        exact ⟨(List.cons.inj (List.append_cancel_left paths)).2,
          fun _ => List.append_cancel_right hosts⟩
      · rintro rfl rfl
        exact List.append_cancel_right paths
    · exact absurd (sameNames.mpr names) otherUnnamed
  · rcases addressBucket_cases other otherBucket with
      ⟨otherNames, -⟩ | ⟨otherNames, -⟩ | ⟨-, otherEq⟩
    · exact absurd (sameNames.mp otherNames) unnamed
    · exact absurd (sameNames.mp otherNames) unnamed
    · rw [eq, otherEq] at paths
      constructor
      · intro sameSub
        rw [sameSub] at paths
        exact ⟨(List.cons.inj (List.append_cancel_left paths)).2,
          fun names => absurd names unnamed⟩
      · rintro rfl rfl
        exact List.append_cancel_right paths

/-! ## Distinct objects -/

/-- A URL, the parameters it is parsed with, and the request made for it. -/
structure TargetRequest where
  params : S3AuthParams
  parsedUrl : ParsedS3Url
  target : S3RequestTarget
  httpQueryString : Text
  requestType : RequestType
  sendPostAsGetRequest : Bool

namespace TargetRequest

/-- The path of the endpoint. -/
def endpointPath (made : TargetRequest) : Text :=
  (splitEndpoint made.params.endpoint).2

def sent (encode : Text → Text) (made : TargetRequest) : CurlRequest :=
  curlRequest encode (addressed made.parsedUrl made.target) made.httpQueryString made.requestType
    made.sendPostAsGetRequest

def IsSentAsSigned (encode : Text → Text) (made : TargetRequest) : Prop :=
  SentAsSigned encode (addressed made.parsedUrl made.target) made.httpQueryString
    (made.sent encode)

def IsKept (made : TargetRequest) : Prop :=
  KeptPath (addressed made.parsedUrl made.target) made.httpQueryString

/-- Two requests for objects under one endpoint and style, up to the endpoint's path. -/
structure Comparable (made other : TargetRequest) : Prop where
  host : (splitEndpoint other.params.endpoint).1 = (splitEndpoint made.params.endpoint).1
  style : other.params.urlStyle = made.params.urlStyle
  ssl : other.params.useSsl = made.params.useSsl
  object : made.target = .object
  otherObject : other.target = .object

/-- Different buckets or keys, and different endpoint paths, lead to different hosts or
paths. -/
def Separate (encode : Text → Text) (made other : TargetRequest) : Prop :=
  (made.endpointPath = other.endpointPath →
      (made.parsedUrl.bucket ≠ other.parsedUrl.bucket ∨
        made.parsedUrl.key ≠ other.parsedUrl.key) →
      (made.sent encode).target ≠ (other.sent encode).target) ∧
    (made.endpointPath ≠ other.endpointPath → made.parsedUrl.bucket = other.parsedUrl.bucket →
      made.parsedUrl.key = other.parsedUrl.key →
      (made.sent encode).target ≠ (other.sent encode).target)

/-- Only a style that has the bucket nowhere can confuse two buckets. -/
def Named (made other : TargetRequest) : Prop :=
  made.endpointPath = other.endpointPath → NamesBucket made.params ∨
    made.parsedUrl.bucket = other.parsedUrl.bucket ∨ made.parsedUrl.key ≠ other.parsedUrl.key

end TargetRequest

theorem separate_iff {encode : Text → Text} (encoding : PathEncoding encode)
    {made other : TargetRequest} {url otherUrl : Text}
    (parses : parse url made.params = .ok made.parsedUrl)
    (otherParses : parse otherUrl other.params = .ok other.parsedUrl)
    (comparable : made.Comparable other) (sent : made.IsSentAsSigned encode)
    (otherSent : other.IsSentAsSigned encode) :
    made.Separate encode other ↔ made.Named other := by
  rcases parse_address parses with ⟨free, -, proto, host, path⟩
  rcases parse_address otherParses with ⟨otherFree, -, otherProto, otherHost, otherPath⟩
  have target := target_of_sentAsSigned encoding sent
  have otherTarget := target_of_sentAsSigned encoding otherSent
  rw [comparable.object, addressed] at target
  rw [comparable.otherObject, addressed] at otherTarget
  have meets : (made.sent encode).target = (other.sent encode).target ↔
      (addressBucket made.params made.parsedUrl.bucket).1 =
          (addressBucket other.params other.parsedUrl.bucket).1 ∧
        (addressBucket made.params made.parsedUrl.bucket).2 ++ '/' :: made.parsedUrl.key =
          (addressBucket other.params other.parsedUrl.bucket).2 ++ '/' :: other.parsedUrl.key := by
    rw [target, otherTarget, Prod.mk.injEq, proto, otherProto, comparable.ssl,
      List.append_cancel_left_eq, host, otherHost, path, otherPath, encoding.injective.eq_iff]
  constructor
  · rintro ⟨separate, -⟩ sameSub
    by_contra confused
    rw [not_or, not_or, not_not] at confused
    rcases confused with ⟨unnamed, differs, sameKey⟩
    apply separate sameSub (.inl differs)
    rw [meets]
    have otherUnnamed : ¬ NamesBucket other.params := by
      rw [NamesBucket, comparable.style]
      exact unnamed
    rcases addressBucket_cases made.params made.parsedUrl.bucket with
      ⟨names, -⟩ | ⟨names, -⟩ | ⟨-, eq⟩
    · exact absurd names unnamed
    · exact absurd names unnamed
    · rcases addressBucket_cases other.params other.parsedUrl.bucket with
        ⟨names, -⟩ | ⟨names, -⟩ | ⟨-, otherEq⟩
      · exact absurd names otherUnnamed
      · exact absurd names otherUnnamed
      · rw [eq, otherEq, comparable.host, sameKey]
        refine ⟨rfl, ?_⟩
        change made.endpointPath ++ _ = other.endpointPath ++ _
        rw [sameSub]
  · intro named
    constructor
    · intro sameSub differs together
      rcases meets.mp together with ⟨hosts, paths⟩
      rcases (same_address comparable.host comparable.style free otherFree hosts paths).1 sameSub with
        ⟨sameKey, sameBucket⟩
      rcases differs with bucket | key
      · rcases named sameSub with names | equal | key
        · exact bucket (sameBucket names)
        · exact bucket equal
        · exact key sameKey
      · exact key sameKey
    · intro differs sameBucket sameKey together
      rcases meets.mp together with ⟨hosts, paths⟩
      exact differs ((same_address comparable.host comparable.style free otherFree hosts paths).2
        sameBucket sameKey)

theorem percentEncoding : PathEncoding Percent.encode where
  append front back := by rw [Percent.encode, List.flatMap_append, Percent.encode, Percent.encode]
  slash := rfl
  noSlash byte other member := by
    rw [Percent.encode, List.flatMap_singleton] at member
    rcases Percent.mem_encodeByte member with rfl | ⟨-, isPercent | digit⟩
    · exact other rfl
    · contradiction
    · revert digit
      decide
  noQuestion text member := by
    rcases List.mem_flatMap.mp member with ⟨byte, -, inside⟩
    rcases Percent.mem_encodeByte inside with same | ⟨escaped, isPercent | digit⟩
    · rw [← same, Percent.encodeByte] at inside
      revert inside
      decide
    · contradiction
    · revert digit
      decide
  injective front back same := by
    rw [← Percent.decode_encode front, same, Percent.decode_encode]

/-- A request for an object of a bucket of the service. -/
def serviceRequest (bucket key : String) : TargetRequest where
  params := { endpoint := "s3.amazonaws.com".toList }
  parsedUrl :=
    { httpProto := "https://".toList
      urlPrefix := "s3://".toList
      host := (bucket ++ ".s3.amazonaws.com").toList
      bucket := bucket.toList
      key := key.toList
      path := '/' :: key.toList
      trimmedS3Url := ("s3://" ++ bucket ++ "/" ++ key).toList }
  target := .object
  httpQueryString := []
  requestType := .get
  sendPostAsGetRequest := false

end Httpfs.S3
