import Httpfs.S3.Request.Data
import Httpfs.S3.Request.Headers
import Httpfs.S3.RequestQuery
import Httpfs.S3.RequestTarget
import Httpfs.Text.Blanks

/-!
# Signed requests

A request to S3 is made from a URL and a snapshot of the parameters.  The headers that
authenticate it are signed together with its method, path, query and payload.
-/

namespace Httpfs.S3

open Http Text

/-! ## Hashes and times -/

/-- Hashing, as bytes to bytes; `hmac256` takes the message and then the secret. -/
structure EncryptionUtil where
  sha256 : Text → Text
  hmac256 : Text → Text → Text

/-- Two digits for each byte. -/
def hex256 (bytes : Text) : Text :=
  bytes.flatMap fun byte =>
    [Nat.digitChar (byte.toNat / 16 % 16), Nat.digitChar (byte.toNat % 16)]

structure Timestamp where
  year : Nat
  month : Nat
  day : Nat
  hour : Nat
  minute : Nat
  second : Nat
  deriving DecidableEq, Repr

def padded (width number : Nat) : Text :=
  let digits := Nat.toDigits 10 number
  List.replicate (width - digits.length) '0' ++ digits

namespace Timestamp

/-- The format `%Y%m%d`. -/
def date (timestamp : Timestamp) : Text :=
  padded 4 timestamp.year ++ padded 2 timestamp.month ++ padded 2 timestamp.day

/-- The format `%Y%m%dT%H%M%SZ`. -/
def datetime (timestamp : Timestamp) : Text :=
  timestamp.date ++ 'T' :: (padded 2 timestamp.hour ++ padded 2 timestamp.minute ++
    padded 2 timestamp.second ++ ['Z'])

end Timestamp

/-! ## Queries -/

structure S3RequestQuery where
  parameters : List (Text × Text)
  wireQuery : Text
  canonicalQuery : Text

namespace S3RequestQuery

/-- The constructor; what is sent is what is signed. -/
def ofParameters (encode : Text → Text) (parameters : List (Text × Text)) : S3RequestQuery where
  parameters := parameters
  wireQuery := S3.wireQuery encode parameters
  canonicalQuery := S3.wireQuery encode parameters

def hasParameter (query : S3RequestQuery) (name : Text) : Bool :=
  query.parameters.any fun parameter => parameter.1 == name

end S3RequestQuery

/-! ## Authentication -/

inductive S3AuthType
  | anonymous
  | sigV4
  | bearer
  deriving DecidableEq, Repr

def getAuthType (authParams : S3AuthParams) : S3AuthType :=
  if authParams.providerType = .gcs ∧ !authParams.oauth2BearerToken.isEmpty then .bearer
  else if authParams.secretAccessKey.isEmpty && authParams.accessKeyId.isEmpty then .anonymous
  else .sigV4

def getRequestMethod : RequestType → Text
  | .get => "GET".toList
  | .put => "PUT".toList
  | .head => "HEAD".toList
  | .delete => "DELETE".toList
  | .post => "POST".toList
  | .options => "OPTIONS".toList

def octetStream : Text :=
  "application/octet-stream".toList

structure CanonicalHeader where
  name : Text
  value : Text
  deriving DecidableEq

structure S3HeaderBuilder where
  encryptionUtil : EncryptionUtil
  url : Text
  query : Text
  host : Text
  service : Text
  method : Text
  authParams : S3AuthParams
  dateNow : Text
  datetimeNow : Text
  payloadHash : Text
  contentType : Text
  contentMd5 : Text
  useSseKms : Bool
  headers : HTTPHeaders

def shouldSignHeader (name : Text) : Bool :=
  lower name == "host".toList || lower name == "content-md5".toList ||
    lower name == "content-type".toList || startsWith (lower name) "x-amz-".toList ||
      startsWith (lower name) "x-goog-".toList

def normalizeHeaderValue (value : Text) : Text :=
  (value.foldl collapseStep ([], false)).1

namespace S3HeaderBuilder

def initializeDefaults (now : Timestamp) (builder : S3HeaderBuilder) : S3HeaderBuilder :=
  let builder :=
    if builder.payloadHash.isEmpty then
      { builder with
        payloadHash :=
          "e3b0c44298fc1c149afbf4c8996fb92427ae41e4649b934ca495991b7852b855".toList }
    else builder
  if builder.datetimeNow.isEmpty then
    { builder with dateNow := now.date, datetimeNow := now.datetime }
  else builder

/-- What `AddRequestHeaders` sets, in its order. -/
def requestHeaders (builder : S3HeaderBuilder) : List (Text × Text) :=
  [("x-amz-date".toList, builder.datetimeNow),
      ("x-amz-content-sha256".toList, builder.payloadHash)] ++
    (if builder.authParams.sessionToken.isEmpty then []
      else [("x-amz-security-token".toList, builder.authParams.sessionToken)]) ++
    (if builder.useSseKms then
      [("x-amz-server-side-encryption".toList, "aws:kms".toList),
        ("x-amz-server-side-encryption-aws-kms-key-id".toList, builder.authParams.kmsKeyId)]
      else []) ++
    (if builder.authParams.requesterPays then
      [("x-amz-request-payer".toList, "requester".toList)]
      else []) ++
    (if builder.contentMd5.isEmpty then []
      else [("content-md5".toList, builder.contentMd5)]) ++
    (if builder.contentType.isEmpty || builder.contentType == octetStream then []
      else [("content-type".toList, builder.contentType)])

def addRequestHeaders (builder : S3HeaderBuilder) : S3HeaderBuilder :=
  { builder with headers := setHeaders builder.headers builder.requestHeaders }

/-- The header of a canonical request for one that is sent. -/
def canonicalHeader (header : Text × Text) : CanonicalHeader :=
  let value :=
    if HTTPFSOwnedS3Headers.contains header.1 then header.2 else normalizeHeaderValue header.2
  ⟨lower header.1, value⟩

def buildCanonicalHeaders (builder : S3HeaderBuilder) : List CanonicalHeader :=
  let result := (builder.headers.entries.filter fun header => shouldSignHeader header.1).map
    canonicalHeader
  let result :=
    if !builder.contentType.isEmpty ∧ lower "content-type".toList ∉ builder.headers.names then
      result ++ [⟨"content-type".toList, builder.contentType⟩]
    else result
  result.insertionSort fun left right => left.name ≤ right.name

def buildSignedHeaders (canonicalHeaders : List CanonicalHeader) : Text :=
  [';'].intercalate (canonicalHeaders.map CanonicalHeader.name)

def buildCanonicalRequest (encode : Text → Text) (builder : S3HeaderBuilder)
    (canonicalHeaders : List CanonicalHeader) (signedHeaders : Text) : Text :=
  builder.method ++ '\n' :: (encode builder.url ++ '\n' :: (builder.query ++
    (canonicalHeaders.flatMap fun header => '\n' :: (header.name ++ ':' :: header.value)) ++
      "\n\n".toList ++ signedHeaders ++ '\n' :: builder.payloadHash))

def credentialScope (builder : S3HeaderBuilder) : Text :=
  builder.dateNow ++ '/' :: (builder.authParams.region ++ '/' :: (builder.service ++
    "/aws4_request".toList))

def createSignature (builder : S3HeaderBuilder) (canonicalRequest : Text) : Text :=
  let hmac256 := builder.encryptionUtil.hmac256
  let canonicalRequestHash := hex256 (builder.encryptionUtil.sha256 canonicalRequest)
  let stringToSign := "AWS4-HMAC-SHA256\n".toList ++ builder.datetimeNow ++ '\n' ::
    (builder.credentialScope ++ '\n' :: canonicalRequestHash)
  let signKey := "AWS4".toList ++ builder.authParams.secretAccessKey
  let kDate := hmac256 builder.dateNow signKey
  let kRegion := hmac256 builder.authParams.region kDate
  let kService := hmac256 builder.service kRegion
  let signingKey := hmac256 "aws4_request".toList kService
  hex256 (hmac256 stringToSign signingKey)

/-- The value of `Authorization`. -/
def authorization (builder : S3HeaderBuilder) (signedHeaders signature : Text) : Text :=
  "AWS4-HMAC-SHA256 Credential=".toList ++ builder.authParams.accessKeyId ++ '/' ::
    (builder.credentialScope ++ ", SignedHeaders=".toList ++ signedHeaders ++
      ", Signature=".toList ++ signature)

/-- The builder when `Create` begins to sign. -/
def prepared (now : Timestamp) (builder : S3HeaderBuilder) : S3HeaderBuilder :=
  ({ builder with headers := builder.headers.set "Host".toList builder.host }
    |>.initializeDefaults now).addRequestHeaders

def canonicalRequest (encode : Text → Text) (builder : S3HeaderBuilder) : Text :=
  let canonicalHeaders := builder.buildCanonicalHeaders
  builder.buildCanonicalRequest encode canonicalHeaders (buildSignedHeaders canonicalHeaders)

def create (encode : Text → Text) (now : Timestamp) (builder : S3HeaderBuilder) : HTTPHeaders :=
  let builder := builder.prepared now
  let canonicalHeaders := builder.buildCanonicalHeaders
  let signedHeaders := buildSignedHeaders canonicalHeaders
  let canonicalRequest := builder.buildCanonicalRequest encode canonicalHeaders signedHeaders
  let signature := builder.createSignature canonicalRequest
  builder.headers.set "Authorization".toList (builder.authorization signedHeaders signature)

end S3HeaderBuilder

/-- The constructor of `S3HeaderBuilder`, for the service S3. -/
def headerBuilder (encryptionUtil : EncryptionUtil) (parsedUrl : ParsedS3Url)
    (query : S3RequestQuery) (requestType : RequestType) (authParams : S3AuthParams)
    (dateNow datetimeNow payloadHash contentType contentMd5 : Text) (headers : HTTPHeaders) :
    S3HeaderBuilder where
  encryptionUtil
  url := parsedUrl.path
  query := query.canonicalQuery
  host := parsedUrl.host
  service := "s3".toList
  method := getRequestMethod requestType
  authParams
  dateNow
  datetimeNow
  payloadHash
  contentType
  contentMd5
  useSseKms := !authParams.kmsKeyId.isEmpty &&
    (requestType == .post || requestType == .put) && !query.hasParameter "uploadId".toList
  headers

def createHeaders (encode : Text → Text) (now : Timestamp) (encryptionUtil : EncryptionUtil)
    (parsedUrl : ParsedS3Url) (query : S3RequestQuery) (requestType : RequestType)
    (authParams : S3AuthParams) (dateNow datetimeNow payloadHash contentType contentMd5 : Text)
    (extraHeaders : ExtraHeaders) (userAgent : Text) : Except ErrorData HTTPHeaders := do
  let headers ← createConfiguredS3Headers extraHeaders userAgent
  match getAuthType authParams with
  | .anonymous => pure (headers.set "Host".toList parsedUrl.host)
  | .sigV4 =>
      pure ((headerBuilder encryptionUtil parsedUrl query requestType authParams dateNow
        datetimeNow payloadHash contentType contentMd5 headers).create encode now)
  | .bearer =>
      pure (setHeaders headers
        ([("Authorization".toList, "Bearer ".toList ++ authParams.oauth2BearerToken),
            ("Host".toList, parsedUrl.host)] ++
          (if contentType.isEmpty then [] else [("Content-Type".toList, contentType)]) ++
          (if contentMd5.isEmpty then [] else [("Content-MD5".toList, contentMd5)])))

def createRequestData (encodePath : Text → Text) (now : Timestamp)
    (encryptionUtil : EncryptionUtil) (captured : S3RequestSnapshot) (s3Url : Text)
    (requestType : RequestType) (target : S3RequestTarget)
    (createQuery : ParsedS3Url → S3RequestQuery) (payloadHash contentType contentMd5 : Text) :
    Except ErrorData S3RequestData := do
  let authParams := captured.authParams
  let httpParams := captured.createRequestParams
  let parsedS3Url ← parse s3Url authParams
  let query := createQuery parsedS3Url
  let parsedS3Url := addressed parsedS3Url target
  let httpUrl := getHttpUrl encodePath parsedS3Url query.wireQuery
  let headers ← createHeaders encodePath now encryptionUtil parsedS3Url query requestType
    authParams [] [] payloadHash contentType contentMd5 httpParams.extraHeaders
    httpParams.userAgent
  pure { requestType, authParams, httpParams, captured, httpUrl, headers := headers.entries }

/-- The hash of a payload; none for an empty one. -/
def getPayloadHash (encryptionUtil : EncryptionUtil) (buffer : Text) : Text :=
  if buffer.isEmpty then [] else hex256 (encryptionUtil.sha256 buffer)

end Httpfs.S3
