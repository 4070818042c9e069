import Httpfs.Core.Options
import Httpfs.Http.CurlClient
import Httpfs.Http.HeaderMap

/-!
# The options of a curl client

A client keeps one easy handle for all of its requests.  Initializing the client
sets the options of its connection, and makes a new handle if the bearer token or
the certificate file is another one; a request sets the options of its transfer and
puts some of them back.  Options that are not set again stay on the handle, and
some of them point to objects of the request, so objects carry the number of the
request, and request infos that of their allocation.

A handle holds what was last given to `curl_easy_setopt`; what libcurl makes of it
is not looked into.
-/

namespace Httpfs.Http.ConnectionCache

open Text
open Httpfs.Http.Curl (normalizePathToBeAdded)
open Httpfs.Options
open Httpfs.S3 (RequestType)

/-- The parameters of a request that a client reads, with the address of the state
that counts its requests. -/
structure RequestParams extends HTTPFSParams where
  keepAlive : Bool := true
  timeout : Nat := 30
  followLocation : Bool := true
  enableCurlServerCertVerification : Bool := true
  caCertFile : Text := []
  state : Option Nat := none
  deriving DecidableEq

/-! ## Handles -/

inductive CURLoption
  | xoauth2Bearer
  | httpAuth
  | caInfo
  | sslOptions
  | forbidReuse
  | sslVerifyPeer
  | sslVerifyHost
  | connectTimeout
  | timeout
  | lowSpeedLimit
  | lowSpeedTime
  | acceptEncoding
  | followLocation
  | headerFunction
  | headerData
  | writeFunction
  | writeData
  | proxy
  | proxyUsername
  | proxyPassword
  | nobody
  | httpGet
  | url
  | curlu
  | httpHeader
  | customRequest
  | postFields
  | postFieldSize
  | postFieldSizeLarge
  | post
  deriving DecidableEq, Repr

/-- The callbacks of the client and those of `GetTransferState`. -/
inductive Callback
  | requestHeader
  | requestWrite
  | transferHeader
  | transferWrite
  deriving DecidableEq, Repr

/-- What a pointer given to curl refers to: a part of a request info, or an object
of one request. -/
inductive Object
  | headerCollection (requestInfo : Nat)
  | body (requestInfo : Nat)
  | transfer (request : Nat)
  | curlu (request : Nat) (baseUrl path : Text)
  | headers (request : Nat) (lines : List Text)
  | bufferIn (request : Nat) (bytes : Text)
  deriving DecidableEq, Repr

inductive CURLvalue
  | null
  | long (value : Int)
  | text (value : Text)
  | function (callback : Callback)
  | object (object : Object)
  deriving DecidableEq, Repr

/-- What has been set on an easy handle. -/
abbrev EasyHandle := CURLoption → Option CURLvalue

/-- The values that requests put options back to. -/
def restValue : EasyHandle
  | .nobody | .post | .postFieldSize | .postFieldSizeLarge => some (.long 0)
  | .httpGet => some (.long 1)
  | .customRequest | .postFields => some .null
  | _ => none

def flag (condition : Bool) : CURLvalue :=
  .long (if condition then 1 else 0)

/-- `CURLAUTH_BEARER`. -/
def curlAuthBearer : CURLvalue := .long 64

/-- `CURLSSLOPT_AUTO_CLIENT_CERT | CURLSSLOPT_NATIVE_CA`. -/
def curlSslOptions : CURLvalue := .long 48

/-- The constructor of `CURLHandle`. -/
def newHandle (token certPath : Text) : EasyHandle :=
  assign (fun _ => none)
    ((if token.isEmpty then []
      else [(.xoauth2Bearer, .text token), (.httpAuth, curlAuthBearer)]) ++
      (if certPath.isEmpty then [] else [(.caInfo, .text certPath)]) ++
      [(.sslOptions, curlSslOptions)])

/-- The handle for a certificate setting; without one, the file that
`SelectCURLCertPath` finds. -/
def handleFor (selectCURLCertPath token certFilePath : Text) : EasyHandle :=
  newHandle token (if certFilePath.isEmpty then selectCURLCertPath else certFilePath)

/-! ## Initialization -/

/-- The address of a proxy, `"%s:%d"`. -/
def proxyAddress (params : RequestParams) : Text :=
  params.httpProxy ++ ':' :: (toString params.httpProxyPort).toList

def configureConnection (params : RequestParams) : List (CURLoption × CURLvalue) :=
  let verifySsl := if params.overrideVerifySsl then params.verifySsl
    else params.enableCurlServerCertVerification
  [(.forbidReuse, flag (!params.keepAlive)),
    (.sslVerifyPeer, flag verifySsl),
    (.sslVerifyHost, .long (if verifySsl then 2 else 0))]

def configureTimeoutsAndCallbacks (params : RequestParams) (requestInfo : Nat) :
    List (CURLoption × CURLvalue) :=
  [(.connectTimeout, .long params.timeout),
    (.timeout, .long 0),
    (.lowSpeedLimit, .long 1024),
    (.lowSpeedTime, .long params.timeout),
    (.acceptEncoding, .null),
    (.followLocation, flag params.followLocation),
    (.headerFunction, .function .requestHeader),
    (.headerData, .object (.headerCollection requestInfo)),
    (.writeFunction, .function .requestWrite),
    (.writeData, .object (.body requestInfo))]

def configureProxy (params : RequestParams) : List (CURLoption × CURLvalue) :=
  [(.proxy, .null), (.proxyUsername, .null), (.proxyPassword, .null)] ++
    if params.httpProxy.isEmpty then []
    else
      (.proxy, .text (proxyAddress params)) ::
        if params.httpProxyUsername.isEmpty then []
        else
          [(.proxyUsername, .text params.httpProxyUsername),
            (.proxyPassword, .text params.httpProxyPassword)]

/-- What `ClientConfigurator::Configure` sets on a handle. -/
def configuration (params : RequestParams) (requestInfo : Nat) : List (CURLoption × CURLvalue) :=
  configureConnection params ++ configureTimeoutsAndCallbacks params requestInfo ++
    configureProxy params

/-- `HTTPFSCurlClient`, with the number of the object and of its request info, and
how many requests it has made. -/
structure HTTPFSCurlClient where
  number : Nat
  baseUrl : Text
  curlBaseUrl : Text
  curl : Option EasyHandle := none
  storedBearerToken : Text := []
  storedCertFilePath : Text := []
  state : Option Nat := none
  requestInfo : Nat := 0
  requests : Nat := 0

namespace HTTPFSCurlClient

/-- The options on the client's handle. -/
def options (client : HTTPFSCurlClient) : EasyHandle :=
  client.curl.getD fun _ => none

/-- `InitializeHandle`. -/
def initializeHandle (selectCURLCertPath : Text) (client : HTTPFSCurlClient)
    (params : RequestParams) : HTTPFSCurlClient :=
  if client.curl.isSome = true ∧ client.storedBearerToken = params.bearerToken ∧
      client.storedCertFilePath = params.caCertFile then
    client
  else
    { client with
      storedCertFilePath := params.caCertFile
      curl := some (handleFor selectCURLCertPath params.bearerToken params.caCertFile)
      storedBearerToken := params.bearerToken }

/-- `Initialize`, which is `ClientConfigurator::Configure`. -/
def configure (selectCURLCertPath : Text) (client : HTTPFSCurlClient) (params : RequestParams) :
    HTTPFSCurlClient :=
  let client := { client with state := params.state }
  let client := client.initializeHandle selectCURLCertPath params
  let client := { client with requestInfo := client.requestInfo + 1 }
  { client with curl := some (assign client.options (configuration params client.requestInfo)) }

/-- Initializing a client leaves what it is connected to. -/
theorem configure_keeps (selectCURLCertPath : Text) (client : HTTPFSCurlClient)
    (params : RequestParams) :
    (client.configure selectCURLCertPath params).number = client.number ∧
      (client.configure selectCURLCertPath params).baseUrl = client.baseUrl ∧
      (client.configure selectCURLCertPath params).curlBaseUrl = client.curlBaseUrl := by
  unfold configure initializeHandle
  dsimp only
  split
  · exact ⟨rfl, rfl, rfl⟩
  · exact ⟨rfl, rfl, rfl⟩

/-- The constructor of `HTTPFSCurlClient`. -/
def new (selectCURLCertPath : Text) (number : Nat) (params : RequestParams)
    (protoHostPort : Text) : HTTPFSCurlClient :=
  let client : HTTPFSCurlClient :=
    { number
      baseUrl := protoHostPort
      curlBaseUrl := normalizePathToBeAdded protoHostPort }
  client.configure selectCURLCertPath params

/-- `Cleanup`. -/
def cleanup (client : HTTPFSCurlClient) : HTTPFSCurlClient :=
  { client with requestInfo := client.requestInfo + 1 }

end HTTPFSCurlClient

/-! ## Requests -/

/-- A request with the members that its method reads. -/
structure BaseRequest where
  type : RequestType
  protoHostPort : Text
  path : Text
  params : RequestParams
  headers : HTTPHeaders := .empty
  bufferIn : Text := []
  contentType : Text := []
  sendPostAsGetRequest : Bool := false
  deriving DecidableEq

/-- `HTTPFSHeaderValue::IsEmpty`. -/
def headerValueIsEmpty (value : Text) : Bool :=
  value.all fun byte => byte == ' ' || byte == '\t'

/-- `CURLRequestHeaders::Add` of a name and a value. -/
def headerLine (header : Text × Text) : Text :=
  if headerValueIsEmpty header.2 then header.1 ++ [';']
  else header.1 ++ ": ".toList ++ header.2

def addUserAgentIfAvailable (params : RequestParams) (headers : HTTPHeaders) : HTTPHeaders :=
  if params.userAgent.isEmpty then headers
  else headers.insert "User-Agent".toList params.userAgent

def transformHeadersCurl (headers : HTTPHeaders) (params : RequestParams) : List Text :=
  headers.entries.map headerLine ++
    if params.preMergedHeaders then [] else params.extraHeaders.entries.map headerLine

/-- What a method sets before the transfer, and what it sets behind it. -/
structure Transfer where
  before : List (CURLoption × CURLvalue)
  after : List (CURLoption × CURLvalue)

namespace HTTPFSCurlClient

variable (client : HTTPFSCurlClient) (request : BaseRequest)

/-- The URL handle of a request. -/
def setCurlu : List (CURLoption × CURLvalue) :=
  [(.url, .null),
    (.curlu, .object (.curlu client.requests client.curlBaseUrl
      (normalizePathToBeAdded request.path)))]

/-- `CURLOPT_HTTPHEADER`, a null pointer for an empty list. -/
def setHttpHeader (lines : List Text) : CURLoption × CURLvalue :=
  (.httpHeader, if lines.isEmpty then .null else .object (.headers client.requests lines))

/-- The headers of a request with its user agent. -/
def curlHeaders : List Text :=
  transformHeadersCurl (addUserAgentIfAvailable request.params request.headers) request.params

/-- `Get`, with the constructor and the destructor of `GetTransferState`. -/
def get : Transfer where
  before :=
    [(.nobody, .long 0), (.httpGet, .long 1)] ++ client.setCurlu request ++
      [client.setHttpHeader (curlHeaders request),
        (.headerFunction, .function .transferHeader),
        (.headerData, .object (.transfer client.requests)),
        (.writeFunction, .function .transferWrite),
        (.writeData, .object (.transfer client.requests))]
  after :=
    [(.headerFunction, .function .requestHeader),
      (.headerData, .object (.headerCollection client.requestInfo)),
      (.writeFunction, .function .requestWrite),
      (.writeData, .object (.body client.requestInfo))]

def put : Transfer where
  before :=
    client.setCurlu request ++
      [(.customRequest, .text "PUT".toList),
        (.postFields, .object (.bufferIn client.requests request.bufferIn)),
        (.postFieldSizeLarge, .long request.bufferIn.length),
        client.setHttpHeader
          (curlHeaders request ++ ["Content-Type: ".toList ++ request.contentType])]
  after :=
    [(.customRequest, .null), (.postFields, .null), (.postFieldSizeLarge, .long 0)]

def head : Transfer where
  before :=
    [(.nobody, .long 1), (.httpGet, .long 0)] ++ client.setCurlu request ++
      [client.setHttpHeader (curlHeaders request)]
  after := [(.nobody, .long 0), (.httpGet, .long 1)]

def delete : Transfer where
  before :=
    client.setCurlu request ++
      [(.customRequest, .text "DELETE".toList), client.setHttpHeader (curlHeaders request)]
  after := [(.customRequest, .null)]

/-- `Options` adds no user agent. -/
def optionsRequest : Transfer where
  before :=
    client.setCurlu request ++
      [(.customRequest, .text "OPTIONS".toList),
        client.setHttpHeader (transformHeadersCurl request.headers request.params)]
  after := [(.customRequest, .null)]

def post : Transfer where
  before :=
    client.setCurlu request ++
      [if request.sendPostAsGetRequest then (.customRequest, .text "GET".toList)
        else (.post, .long 1),
        (.postFields, .object (.bufferIn client.requests request.bufferIn)),
        (.postFieldSize, .long request.bufferIn.length),
        client.setHttpHeader
          (curlHeaders request ++
            if ((addUserAgentIfAvailable request.params request.headers).get?
                "Content-Type".toList).isSome then []
            else ["Content-Type: application/octet-stream".toList])]
  after :=
    [(.customRequest, .null), (.postFields, .null), (.postFieldSize, .long 0),
      (.post, .long 0)]

def transfer : Transfer :=
  match request.type with
  | .get => client.get request
  | .put => client.put request
  | .head => client.head request
  | .delete => client.delete request
  | .options => client.optionsRequest request
  | .post => client.post request

/-- The options in effect when a request is executed. -/
def executes : EasyHandle :=
  assign client.options (client.transfer request).before

/-- The client behind a request. -/
def behind : HTTPFSCurlClient :=
  { client with
    curl := some (assign (client.executes request) (client.transfer request).after)
    requests := client.requests + 1 }

end HTTPFSCurlClient

end Httpfs.Http.ConnectionCache
