import Httpfs.S3.Auth
import Httpfs.S3.Request.Data
import Httpfs.Text.LengthPrefixed
import Httpfs.Text.Order

/-!
# The key of a delete batch

Paths that a bulk delete may put into one request are told by a text that is
built from their address, their authentication parameters, the parameters a
refresh replaces and the secrets they select.  Only the number of headers is
not part of it.
-/

namespace Httpfs.S3.Delete

open Http Text

structure S3DeleteBatchUrlInfo where
  urlPrefix : Text
  httpProto : Text
  host : Text
  path : Text
  authParams : S3AuthParams
  deriving DecidableEq, Repr

/-- A secret that a lookup selects, and how well its scope matches. -/
structure SecretMatch where
  score : Nat
  type : Text
  provider : Text
  name : Text
  storageMode : Text
  persistType : Nat
  scope : List Text
  deriving DecidableEq, Repr

/-- What a delete finds out through its opener.  Without a secret manager or a
transaction nothing is looked up. -/
structure Opener where
  settings? : Option (Text → S3Settings)
  decode : Text → Text
  initializeParameters : Text → HTTPFSParams
  lookupSecret? : Option (Text → Text → Option SecretMatch)
  credentialRefreshEnabled : Bool
  hasRefreshableS3Secret : Text → Bool

def secretTypes : List Text :=
  ["s3".toList, "r2".toList, "gcs".toList, "aws".toList]

/-- How the secret manager names what it finds: a secret has the type that was
asked for, in some case, and its provider is not a number. -/
structure Opener.NamesSecrets (opener : Opener) : Prop where
  type : ∀ lookup ∈ opener.lookupSecret?, ∀ path type, ∀ found ∈ lookup path type,
    lower found.type = type
  provider : ∀ lookup ∈ opener.lookupSecret?, ∀ path type, ∀ found ∈ lookup path type,
    ∃ byte ∈ found.provider, byte.isDigit = false

/-! ## Parts -/

/-- `AddIndex` gives the number in decimal. -/
def index (value : Nat) : Text :=
  Nat.toDigits 10 value

def bool (value : Bool) : Text :=
  if value then "1".toList else "0".toList

def providerIndex : S3ProviderType → Nat
  | .s3 => 0
  | .gcs => 1
  | .r2 => 2

def urlKeyParts (urlInfo : S3DeleteBatchUrlInfo) : List Text :=
  [urlInfo.urlPrefix, urlInfo.httpProto, urlInfo.host, urlInfo.path]

def authKeyParts (authParams : S3AuthParams) : List Text :=
  [index (providerIndex authParams.providerType), authParams.region, authParams.accessKeyId,
    authParams.secretAccessKey, authParams.sessionToken, authParams.endpoint,
    authParams.kmsKeyId, authParams.urlStyle, bool authParams.useSsl,
    bool authParams.s3UrlCompatibilityMode, bool authParams.requesterPays,
    authParams.oauth2BearerToken]

def headerKeyParts (headers : List (Text × Text)) : List Text :=
  headers.flatMap fun header => [header.1, header.2]

def httpKeyParts (params : S3RefreshableHTTPParams) : List Text :=
  [params.httpProxy, index params.httpProxyPort, params.httpProxyUsername,
    params.httpProxyPassword, bool params.overrideVerifySsl, bool params.verifySsl,
    params.bearerToken] ++ headerKeyParts (sortPairs params.extraHeaders.entries)

def secretKeyParts (secretEntry : SecretMatch) : List Text :=
  [secretEntry.type, secretEntry.provider, secretEntry.name, secretEntry.storageMode,
    index secretEntry.persistType, index secretEntry.scope.length] ++ secretEntry.scope

/-- The parts for one type of secret. -/
def typeKeyParts (lookup : Text → Text → Option SecretMatch) (path type : Text) : List Text :=
  match lookup path type with
  | none => [type, []]
  | some found => type :: index found.score :: secretKeyParts found

def selectedSecretKeyParts (opener : Opener) (path : Text) : List Text :=
  match opener.lookupSecret? with
  | none => [[]]
  | some lookup => secretTypes.flatMap (typeKeyParts lookup path)

def lookupDirectory (path : Text) : Text :=
  if '/' ∈ path then (path.reverse.dropWhile (· ≠ '/')).reverse else path

def refreshKeyPart (opener : Opener) (path : Text) : Text :=
  if opener.credentialRefreshEnabled && opener.hasRefreshableS3Secret path then
    lookupDirectory path
  else []

def batchKeyParts (opener : Opener) (urlInfo : S3DeleteBatchUrlInfo)
    (params : S3RefreshableHTTPParams) (path : Text) : List Text :=
  urlKeyParts urlInfo ++ authKeyParts urlInfo.authParams ++ httpKeyParts params ++
    (selectedSecretKeyParts opener path ++ [refreshKeyPart opener path])

def createDeleteBatchKey (opener : Opener) (urlInfo : S3DeleteBatchUrlInfo)
    (params : S3RefreshableHTTPParams) (path : Text) : Text :=
  (batchKeyParts opener urlInfo params path).flatMap lengthPrefixed

/-! ## Headers -/

theorem bool_injective : Function.Injective bool := by
  intro left right same
  cases left <;> cases right <;> first | rfl | cases same

theorem providerIndex_injective : Function.Injective providerIndex := by
  intro left right same
  cases left <;> cases right <;> first | rfl | cases same

theorem length_headerKeyParts (headers : List (Text × Text)) :
    (headerKeyParts headers).length = 2 * headers.length := by
  induction headers with
  | nil => rfl
  | cons header headers ih =>
      rw [headerKeyParts] at ih ⊢
      simp only [List.flatMap_cons, List.length_append, List.length_cons, List.length_nil, ih]
      omega

theorem headerKeyParts_injective : Function.Injective headerKeyParts := by
  intro headers
  induction headers with
  | nil =>
      intro others same
      cases others with
      | nil => rfl
      | cons other others => cases same
  | cons header headers ih =>
      intro others same
      cases others with
      | nil => cases same
      | cons other others =>
          simp only [headerKeyParts, List.flatMap_cons, List.cons_append, List.nil_append,
            List.cons.injEq] at same
          rcases same with ⟨name, value, rest⟩
          rw [Prod.ext name value, ih rest]

section Secrets

variable {opener : Opener} {path other : Text}

private theorem typeKeyParts_head (lookup : Text → Text → Option SecretMatch) (path type : Text) :
    ∃ rest, typeKeyParts lookup path type = type :: rest := by
  rw [typeKeyParts]
  split
  · exact ⟨_, rfl⟩
  · exact ⟨_, rfl⟩

/-- The parts of the selected secrets begin with the first type. -/
private theorem selected_head {lookup : Text → Text → Option SecretMatch} (path : Text) :
    ∃ rest, secretTypes.flatMap (typeKeyParts lookup path) =
      typeKeyParts lookup path "s3".toList ++ "r2".toList :: rest := by
  rcases typeKeyParts_head lookup path "r2".toList with ⟨rest, next⟩
  refine ⟨rest ++ ["gcs".toList, "aws".toList].flatMap (typeKeyParts lookup path), ?_⟩
  rw [secretTypes, List.flatMap_cons, List.flatMap_cons, next]
  rfl

/-- After the type comes nothing or a number. -/
private theorem typeKeyParts_second (lookup : Text → Text → Option SecretMatch)
    (path type : Text) : ∃ second rest, typeKeyParts lookup path type = type :: second :: rest ∧
      ∀ byte ∈ second, byte.isDigit = true := by
  rw [typeKeyParts]
  split
  · refine ⟨_, _, rfl, ?_⟩
    rintro byte ⟨⟩
  · exact ⟨_, _, rfl, fun byte => isDigit_of_mem_toDigits⟩

/-- What follows the headers does not begin with a pair that could be the next
header and go on like the parts of other secrets. -/
private theorem secretParts_not_headers (secrets : opener.NamesSecrets)
    {header : Text × Text} {headers : List (Text × Text)}
    (increasing : (header :: headers).Pairwise fun left right => left.1 < right.1)
    (same : selectedSecretKeyParts opener path ++ [refreshKeyPart opener path] =
      headerKeyParts (header :: headers) ++
        (selectedSecretKeyParts opener other ++ [refreshKeyPart opener other])) : False := by
  rw [selectedSecretKeyParts, selectedSecretKeyParts] at same
  cases lookups : opener.lookupSecret? with
  | none =>
      rw [lookups] at same
      have lengths := congrArg List.length same
      simp [length_headerKeyParts] at lengths
  | some lookup =>
      rw [lookups] at same
      dsimp only at same
      rcases @selected_head lookup path with ⟨rest, own⟩
      rcases @selected_head lookup other with ⟨otherRest, others⟩
      rw [own, others] at same
      have split : headerKeyParts (header :: headers) =
          header.1 :: header.2 :: headerKeyParts headers := rfl
      rw [split] at same
      cases found : lookup path "s3".toList with
      | none =>
          have noMatch : typeKeyParts lookup path "s3".toList = ["s3".toList, []] := by
            rw [typeKeyParts, found]
          rw [noMatch] at same
          simp only [List.cons_append, List.nil_append, List.cons.injEq] at same
          rcases same with ⟨first, -, next⟩
          cases headers with
          | nil =>
              rcases typeKeyParts_head lookup other "s3".toList with ⟨more, starts⟩
              rw [starts] at next
              exact absurd (List.cons.inj next).1 (by decide)
          | cons second headers =>
              have name : "r2".toList = second.1 := (List.cons.inj next).1
              have less := List.rel_of_pairwise_cons increasing List.mem_cons_self
              rw [← first, ← name] at less
              exact absurd less (by decide)
      | some secret =>
          have isMatch : typeKeyParts lookup path "s3".toList =
              "s3".toList :: index secret.score :: secretKeyParts secret := by
            rw [typeKeyParts, found]
          rw [isMatch, secretKeyParts] at same
          simp only [List.cons_append, List.nil_append, List.cons.injEq] at same
          rcases same with ⟨first, -, next⟩
          cases headers with
          | nil =>
              -- Then the provider would stand where a number is.
              rcases typeKeyParts_second lookup other "s3".toList with ⟨second, more, starts, digits⟩
              rw [starts] at next
              have provider : secret.provider = second := (List.cons.inj (List.cons.inj next).2).1
              rcases secrets.provider lookup lookups _ _ secret found with ⟨byte, member, noDigit⟩
              rw [digits byte (provider ▸ member)] at noDigit
              contradiction
          | cons second headers =>
              -- Then the type would come after its own lower case.
              have name : secret.type = second.1 := (List.cons.inj next).1
              have less := List.rel_of_pairwise_cons increasing List.mem_cons_self
              rw [← first, ← name, ← secrets.type lookup lookups _ _ secret found] at less
              exact absurd (le_lower secret.type) (not_le_of_gt less)

/-- The headers can be told from the secrets behind them. -/
private theorem headers_eq (secrets : opener.NamesSecrets) {headers others : List (Text × Text)}
    (increasing : headers.Pairwise fun left right => left.1 < right.1)
    (othersIncreasing : others.Pairwise fun left right => left.1 < right.1)
    (same : headerKeyParts headers ++
        (selectedSecretKeyParts opener path ++ [refreshKeyPart opener path]) =
      headerKeyParts others ++
        (selectedSecretKeyParts opener other ++ [refreshKeyPart opener other])) :
    headers = others := by
  induction headers generalizing others with
  | nil =>
      cases others with
      | nil => rfl
      | cons header others => exact (secretParts_not_headers secrets othersIncreasing same).elim
  | cons header headers ih =>
      cases others with
      | nil => exact (secretParts_not_headers secrets increasing same.symm).elim
      | cons otherHeader others =>
          simp only [headerKeyParts, List.flatMap_cons, List.cons_append, List.nil_append,
            List.cons.injEq] at same
          rcases same with ⟨name, value, rest⟩
          rw [Prod.ext name value, ih increasing.of_cons othersIncreasing.of_cons rest]

end Secrets

/-! ## Equal keys -/

/-- Everything of the authentication parameters that the key tells. -/
def sameAuthParams (authParams other : S3AuthParams) : Prop :=
  { authParams with schemeIsAlias := false } = { other with schemeIsAlias := false }

/-- Paths with the same key agree in their address, their authentication
parameters and the parameters a refresh replaces. -/
theorem createDeleteBatchKey_inj {opener : Opener} (secrets : opener.NamesSecrets)
    {urlInfo otherInfo : S3DeleteBatchUrlInfo} {params otherParams : S3RefreshableHTTPParams}
    {path other : Text}
    (sameKey : createDeleteBatchKey opener urlInfo params path =
      createDeleteBatchKey opener otherInfo otherParams other) :
    urlInfo.urlPrefix = otherInfo.urlPrefix ∧ urlInfo.httpProto = otherInfo.httpProto ∧
      urlInfo.host = otherInfo.host ∧ urlInfo.path = otherInfo.path ∧
      sameAuthParams urlInfo.authParams otherInfo.authParams ∧
      params.same otherParams = true := by
  have parts := flatMap_lengthPrefixed_injective sameKey
  simp only [batchKeyParts, urlKeyParts, authKeyParts, httpKeyParts, List.cons_append,
    List.nil_append, List.cons.injEq, bool_injective.eq_iff] at parts
  rcases parts with ⟨urlPrefix, httpProto, host, path, provider, region, accessKeyId,
    secretAccessKey, sessionToken, endpoint, kmsKeyId, urlStyle, useSsl, compatibility,
    requesterPays, bearer, proxy, port, proxyUsername, proxyPassword, overrideVerifySsl,
    verifySsl, bearerToken, rest⟩
  have providerType := providerIndex_injective (toDigits_injective provider)
  have proxyPort := toDigits_injective port
  have headers := headers_eq secrets (sortPairs_names params.extraHeaders.distinct)
    (sortPairs_names otherParams.extraHeaders.distinct) rest
  have permuted : params.extraHeaders.entries.Perm otherParams.extraHeaders.entries :=
    (sortPairs_perm _).symm.trans (headers ▸ sortPairs_perm _)
  refine ⟨urlPrefix, httpProto, host, path, ?_, ?_⟩
  · simp only [sameAuthParams, providerType, region, accessKeyId, secretAccessKey, sessionToken,
      endpoint, kmsKeyId, urlStyle, useSsl, compatibility, requesterPays, bearer]
  · simp [S3RefreshableHTTPParams.same, proxy, proxyPort, proxyUsername, proxyPassword,
      overrideVerifySsl, verifySsl, bearerToken, ExtraHeaders.same_iff.mpr permuted]

end Httpfs.S3.Delete
