import Httpfs.Http.Params
import Httpfs.S3.Provider

/-!
# Requests of a session

A session holds a snapshot of the parameters its requests are made from; a
request keeps the snapshot it was made from.
-/

namespace Httpfs.S3

open Http Text

inductive RequestType
  | get
  | put
  | head
  | delete
  | post
  | options
  deriving DecidableEq, Repr

inductive S3RequestTarget
  | object
  | bucket
  deriving DecidableEq, Repr

inductive S3PostRequestMode
  | default
  | retryReceivedResponses
  deriving DecidableEq, Repr

/-- The parameters a refresh of the credentials replaces. -/
structure S3RefreshableHTTPParams where
  httpProxy : Text
  httpProxyPort : Nat
  httpProxyUsername : Text
  httpProxyPassword : Text
  extraHeaders : ExtraHeaders
  overrideVerifySsl : Bool
  verifySsl : Bool
  bearerToken : Text
  deriving DecidableEq

namespace S3RefreshableHTTPParams

def ofParams (params : HTTPFSParams) : S3RefreshableHTTPParams where
  httpProxy := params.httpProxy
  httpProxyPort := if params.httpProxy.isEmpty then 0 else params.httpProxyPort
  httpProxyUsername := params.httpProxyUsername
  httpProxyPassword := params.httpProxyPassword
  extraHeaders := params.extraHeaders
  overrideVerifySsl := params.overrideVerifySsl
  verifySsl := params.verifySsl
  bearerToken := params.bearerToken

def apply (params : S3RefreshableHTTPParams) (target : HTTPFSParams) : HTTPFSParams :=
  { target with
    httpProxy := params.httpProxy
    httpProxyPort := if params.httpProxy.isEmpty then 0 else params.httpProxyPort
    httpProxyUsername := params.httpProxyUsername
    httpProxyPassword := params.httpProxyPassword
    extraHeaders := params.extraHeaders
    overrideVerifySsl := params.overrideVerifySsl
    verifySsl := params.verifySsl
    bearerToken := params.bearerToken
    preMergedHeaders := false }

/-- `operator==`. -/
def same (params other : S3RefreshableHTTPParams) : Bool :=
  params.httpProxy == other.httpProxy && params.httpProxyPort == other.httpProxyPort &&
    params.httpProxyUsername == other.httpProxyUsername &&
    params.httpProxyPassword == other.httpProxyPassword &&
    params.extraHeaders.same other.extraHeaders &&
    params.overrideVerifySsl == other.overrideVerifySsl &&
    params.verifySsl == other.verifySsl && params.bearerToken == other.bearerToken

/-- Applied parameters are read back as they were. -/
theorem ofParams_apply (params target : HTTPFSParams) :
    ofParams ((ofParams params).apply target) = ofParams params := by
  by_cases proxy : params.httpProxy.isEmpty = true
  · simp [ofParams, apply, proxy]
  · simp [ofParams, apply, proxy]

end S3RefreshableHTTPParams

structure S3RequestSnapshot where
  params : HTTPFSParams
  authParams : S3AuthParams
  refreshPath : Text
  credentialRefreshEnabled : Bool := true
  regionRedirected : Bool := false
  credentialGeneration : Nat := 0
  deriving DecidableEq

/-- Parameters of one request; the configured headers are in its headers. -/
def S3RequestSnapshot.createRequestParams (snapshot : S3RequestSnapshot) : HTTPFSParams :=
  { snapshot.params with preMergedHeaders := true }

structure S3RequestData where
  requestType : RequestType := .get
  authParams : S3AuthParams
  httpParams : HTTPFSParams
  captured : S3RequestSnapshot
  httpUrl : Text
  headers : List (Text × Text)
  deriving DecidableEq

end Httpfs.S3
