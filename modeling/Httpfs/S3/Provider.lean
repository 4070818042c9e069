import Httpfs.Core.Error
import Httpfs.Text.Core

/-!
# S3 providers

Routing of a URL to a provider by its scheme, and the defaults a provider
derives for the authentication parameters once every source of them is read.
-/

namespace Httpfs.S3

open Text

inductive S3ProviderType
  | s3
  | gcs
  | r2
  deriving DecidableEq, Repr

structure S3ProviderMatch where
  type : S3ProviderType
  urlPrefix : Text
  deriving DecidableEq, Repr

structure S3AuthParams where
  providerType : S3ProviderType := .s3
  schemeIsAlias : Bool := false
  region : Text := []
  accessKeyId : Text := []
  secretAccessKey : Text := []
  sessionToken : Text := []
  endpoint : Text := []
  kmsKeyId : Text := []
  urlStyle : Text := []
  useSsl : Bool := true
  s3UrlCompatibilityMode : Bool := false
  requesterPays : Bool := false
  oauth2BearerToken : Text := []
  deriving DecidableEq, Repr

/-! ## Routing -/

def providerMatches : List S3ProviderMatch :=
  [⟨.s3, "s3://".toList⟩, ⟨.s3, "s3a://".toList⟩, ⟨.s3, "s3n://".toList⟩,
    ⟨.gcs, "gcs://".toList⟩, ⟨.gcs, "gs://".toList⟩, ⟨.r2, "r2://".toList⟩]

def schemeSyntaxIsValid : Text → Bool
  | [] => false
  | first :: rest =>
      first.isAlpha &&
        rest.all fun byte => byte.isAlphanum || byte == '+' || byte == '-' || byte == '.'

/-- The configured scheme aliases as prefixes; `reserved` tells which schemes
another file system owns. -/
def getSchemeAliasPrefixes (reserved : Text → Bool) (aliases : List Text) : List Text :=
  ((aliases.map lower).filter fun scheme => schemeSyntaxIsValid scheme && !reserved scheme).map
    fun scheme => scheme ++ "://".toList

/-- `TryMatchUrl(url)`: the built-in schemes. -/
def tryMatchUrl (url : Text) : Option S3ProviderMatch :=
  providerMatches.find? fun providerMatch => startsWith (lower url) providerMatch.urlPrefix

/-- `TryMatchUrl(url, scheme_alias_prefixes)`: the built-in schemes, then the aliases. -/
def tryMatchUrlOrAlias (url : Text) (schemeAliasPrefixes : List Text) :
    Option S3ProviderMatch :=
  match tryMatchUrl url with
  | some providerMatch => some providerMatch
  | none =>
      (schemeAliasPrefixes.find? fun aliasPrefix => startsWith (lower url) aliasPrefix).map
        fun aliasPrefix => ⟨.s3, aliasPrefix⟩

/-- What `MatchUrl` throws for a URL of no built-in scheme. -/
def unmatchedUrl : ErrorData :=
  .io ("URL needs to start with s3://, s3a://, s3n://, gcs://, gs://, r2:// (or a scheme " ++
    "listed in the 's3_url_scheme_aliases' setting)")

/-! ## Authentication parameters -/

def endpointIsAWS (endpoint : Text) : Bool :=
  endpoint.isEmpty ||
    (startsWith endpoint "s3.".toList && endsWith endpoint ".amazonaws.com".toList)

def requiresExplicitEndpoint (authParams : S3AuthParams) : Bool :=
  authParams.schemeIsAlias || authParams.providerType == .r2

def endpointIsUnresolved (authParams : S3AuthParams) : Bool :=
  (trim authParams.endpoint).isEmpty

def applyProviderDefaults (authParams : S3AuthParams) : S3AuthParams :=
  if authParams.providerType = .gcs then
    { authParams with
      endpoint :=
        if authParams.endpoint.isEmpty then "storage.googleapis.com".toList
        else authParams.endpoint
      urlStyle :=
        if authParams.urlStyle.isEmpty then "path".toList else authParams.urlStyle }
  else authParams

def applyDerivedDefaults (authParams : S3AuthParams) : S3AuthParams :=
  if !endpointIsAWS authParams.endpoint then authParams
  else if authParams.region.isEmpty && authParams.accessKeyId.isEmpty then
    { authParams with endpoint := "s3.amazonaws.com".toList }
  else
    let region :=
      if authParams.region.isEmpty then "us-east-1".toList else authParams.region
    { authParams with
      region
      endpoint := "s3.".toList ++ region ++ ".amazonaws.com".toList }

def finalizeAuthParams (authParams : S3AuthParams) : Except ErrorData S3AuthParams :=
  let authParams := applyProviderDefaults authParams
  if requiresExplicitEndpoint authParams && endpointIsUnresolved authParams then
    if authParams.providerType = .r2 then
      throw (.io ("R2 requires an endpoint; provide account_id in the secret or s3_endpoint " ++
        "in the URL"))
    else
      throw (.io ("An aliased URL scheme requires an endpoint; provide ENDPOINT in the " ++
        "secret, set s3_endpoint, or pass s3_endpoint in the URL"))
  else pure (applyDerivedDefaults authParams)

/-! ## Routed URLs -/

theorem applyProviderDefaults_compatibility (authParams : S3AuthParams) :
    (applyProviderDefaults authParams).s3UrlCompatibilityMode =
      authParams.s3UrlCompatibilityMode := by
  unfold applyProviderDefaults
  split <;> rfl

theorem applyDerivedDefaults_compatibility (authParams : S3AuthParams) :
    (applyDerivedDefaults authParams).s3UrlCompatibilityMode =
      authParams.s3UrlCompatibilityMode := by
  unfold applyDerivedDefaults
  split
  · rfl
  · split <;> rfl

/-- Finalizing keeps the URL mode. -/
theorem finalizeAuthParams_compatibility {authParams finalized : S3AuthParams}
    (finalize : finalizeAuthParams authParams = .ok finalized) :
    finalized.s3UrlCompatibilityMode = authParams.s3UrlCompatibilityMode := by
  unfold finalizeAuthParams at finalize
  simp only at finalize
  split at finalize
  · split at finalize <;> contradiction
  · cases finalize
    rw [applyDerivedDefaults_compatibility, applyProviderDefaults_compatibility]

end Httpfs.S3
