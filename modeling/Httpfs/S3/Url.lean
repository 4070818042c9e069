import Httpfs.S3.Provider

/-!
# S3 URLs

Splitting an S3 URL into bucket, key and query string, and reading the query
string into the authentication parameters.  URL decoding is a parameter.
-/

namespace Httpfs.S3

open Text

/-! ## Query parameters -/

/-- The query parameters, each key once. -/
abbrev QueryParams := List (Text × Text)

/-- Body of the loop of `ParseQueryParameters`: the piece between two `&`. -/
def parseQueryParameter (decode : Text → Text) (result : QueryParams) (piece : Text) :
    Except ErrorData QueryParams :=
  let equals := (findFrom '=' piece 0).getD piece.length
  if 0 < equals then
    let key := decode (substr piece 0 equals)
    let value := decode (substrFrom piece (equals + 1))
    if (result.lookup key).isSome then
      throw (.io ("Duplicate S3 URL query parameter '" ++ String.ofList key ++ "'"))
    else pure (result ++ [(key, value)])
  else pure result

def parseQueryParameters (decode : Text → Text) (urlQueryParam : Text) :
    Except ErrorData QueryParams :=
  (urlQueryParam.splitOn '&').foldlM (parseQueryParameter decode) []

/-- The value of a query parameter, or `param` without one; the parameter is consumed. -/
def getQueryParam (key param : Text) (queryParams : QueryParams) : Text × QueryParams :=
  match queryParams.lookup key with
  | some value => (value, queryParams.filter fun entry => entry.1 ≠ key)
  | none => (param, queryParams)

/-- A query parameter that is `true` or `false`. -/
def getBoolQueryParam (key : String) (param : Bool) (queryParams : QueryParams) :
    Except ErrorData (Bool × QueryParams) :=
  match queryParams.lookup key.toList with
  | some value =>
      let rest := queryParams.filter fun entry => entry.1 ≠ key.toList
      if value = "true".toList then pure (true, rest)
      else if value = "false".toList then pure (false, rest)
      else throw (.io ("Incorrect setting found for " ++ key ++
        ", allowed values are: 'true' or 'false'"))
  | none => pure (param, queryParams)

def readQueryParams (decode : Text → Text) (urlQueryParam : Text) (params : S3AuthParams) :
    Except ErrorData S3AuthParams :=
  if urlQueryParam.isEmpty then pure params
  else do
    let queryParams ← parseQueryParameters decode urlQueryParam
    let (region, queryParams) := getQueryParam "s3_region".toList params.region queryParams
    let (accessKeyId, queryParams) :=
      getQueryParam "s3_access_key_id".toList params.accessKeyId queryParams
    let (secretAccessKey, queryParams) :=
      getQueryParam "s3_secret_access_key".toList params.secretAccessKey queryParams
    let (sessionToken, queryParams) :=
      getQueryParam "s3_session_token".toList params.sessionToken queryParams
    let (endpoint, queryParams) := getQueryParam "s3_endpoint".toList params.endpoint queryParams
    let (urlStyle, queryParams) := getQueryParam "s3_url_style".toList params.urlStyle queryParams
    let (useSsl, queryParams) ← getBoolQueryParam "s3_use_ssl" params.useSsl queryParams
    let (requesterPays, queryParams) ←
      getBoolQueryParam "s3_requester_pays" params.requesterPays queryParams
    if !queryParams.isEmpty then
      throw (.io ("Invalid query parameters found. Supported parameters are:\n's3_region', " ++
        "'s3_access_key_id', 's3_secret_access_key', 's3_session_token',\n's3_endpoint', " ++
        "'s3_url_style', 's3_use_ssl', 's3_requester_pays'"))
    else
      pure { params with
        region, accessKeyId, secretAccessKey, sessionToken, endpoint, urlStyle, useSsl,
        requesterPays }

/-! ## Parsing -/

structure ParsedS3Url where
  httpProto : Text := []
  urlPrefix : Text := []
  host : Text := []
  bucket : Text := []
  key : Text := []
  path : Text := []
  queryParam : Text := []
  trimmedS3Url : Text := []
  deriving DecidableEq, Repr

/-- The provider prefix of a URL; an aliased scheme is taken from the URL itself. -/
def parsePrefix (url : Text) : Except ErrorData Text :=
  match tryMatchUrl url with
  | some providerMatch => pure providerMatch.urlPrefix
  | none =>
      match find "://".toList url with
      | none => throw unmatchedUrl
      | some schemeEnd => pure (lower (substr url 0 (schemeEnd + 3)))

/-- Query string, URL without it, and the key with its leading slash. -/
def splitQuery (url : Text) (slashPos : Nat) : Text × Text × Text :=
  match findFirstOf ['?'] url with
  | none => ([], url, substrFrom url slashPos)
  | some questionPos =>
      let queryParam := substrFrom url (questionPos + 1)
      let trimmedS3Url := substr url 0 questionPos
      if queryParam.isEmpty then (queryParam, trimmedS3Url, substrFrom url slashPos)
      -- `question_pos - slash_pos` wraps past every length when the `?` comes first.
      else if questionPos < slashPos then (queryParam, trimmedS3Url, substrFrom url slashPos)
      else (queryParam, trimmedS3Url, substr url slashPos (questionPos - slashPos))

/-- Host and path of the endpoint: the `Host` header has no path in it. -/
def splitEndpoint (endpoint : Text) : Text × Text :=
  match findFirstOf ['/'] endpoint with
  | some subPathPos => (substr endpoint 0 subPathPos, substrFrom endpoint subPathPos)
  | none => (endpoint, [])

/-- Host and path for a bucket under the URL style. -/
def addressBucket (params : S3AuthParams) (bucket : Text) : Text × Text :=
  let (host, path) := splitEndpoint params.endpoint
  let useVhost := params.urlStyle.isEmpty || params.urlStyle == "vhost".toList ||
    params.urlStyle == "virtual".toList
  -- A bucket name with a period is not addressable vhost-style over TLS.
  let usePath := params.urlStyle == "path".toList ||
    (useVhost && params.useSsl && (findFrom '.' bucket 0).isSome)
  if usePath then (host, path ++ "/".toList ++ bucket)
  else if useVhost then (bucket ++ ".".toList ++ host, path)
  else (host, path)

def parse (url : Text) (params : S3AuthParams) : Except ErrorData ParsedS3Url := do
  let urlPrefix ← parsePrefix url
  let prefixEndPos := ((find "//".toList url).map (· + 2)).getD 1
  match findFrom '/' url prefixEndPos with
  | none => throw (.io "URL needs to contain a '/' after the host")
  | some slashPos =>
      let bucket := substr url prefixEndPos (slashPos - prefixEndPos)
      if bucket.isEmpty then throw (.io "URL needs to contain a bucket name")
      else
        let (queryParam, trimmedS3Url, key) :=
          -- In url compatibility mode query strings are disabled.
          if params.s3UrlCompatibilityMode then ([], url, substrFrom url slashPos)
          else splitQuery url slashPos
        if key.isEmpty then throw (.io "URL needs to contain key")
        else
          let (host, path) := addressBucket params bucket
          pure {
            httpProto := if params.useSsl then "https://".toList else "http://".toList
            urlPrefix
            host
            bucket
            key := substrFrom key 1
            path := path ++ key
            queryParam
            trimmedS3Url }

/-- `Resolve`: the parsed URL and the parameters its query string leads to. -/
def resolve (decode : Text → Text) (url : Text) (params : S3AuthParams) :
    Except ErrorData (ParsedS3Url × S3AuthParams) := do
  let parsedUrl ← parse url params
  -- The last source of an endpoint, so validation happens after it.
  let read ← readQueryParams decode parsedUrl.queryParam params
  let finalized ← finalizeAuthParams read
  let parsedUrl ← parse url finalized
  pure (parsedUrl, finalized)

/-- The URL as messages show it, without its query string. -/
def getDisplayUrl (url : Text) (params : S3AuthParams) : Text :=
  if params.s3UrlCompatibilityMode then url
  else
    match findFrom '?' url 0 with
    | none => url
    | some queryPosition => substr url 0 queryPosition

/-- The path of the bucket alone. -/
def getBucketPath (parsedUrl : ParsedS3Url) : Text :=
  let bucketPath := substr parsedUrl.path 0 (parsedUrl.path.length - parsedUrl.key.length)
  if bucketPath.isEmpty then "/".toList else bucketPath

end Httpfs.S3
