import Httpfs.S3.Glob.Opening

/-!
# Authentication parameters

How the parameters of a path are read, and how a region replaces theirs.  The
values of the secrets and settings for a path are given.
-/

namespace Httpfs.S3

open Text

/-- What the secrets and settings hold for a path; the defaults where nothing is
set.  Two of them count only if a secret gives them. -/
structure S3Settings where
  region : Text := []
  accessKeyId : Text := []
  secretAccessKey : Text := []
  sessionToken : Text := []
  useSsl : Bool := true
  kmsKeyId : Text := []
  s3UrlCompatibilityMode : Bool := false
  requesterPays : Bool := false
  endpoint : Text := []
  endpointFromSecret : Bool := false
  urlStyle : Text := []
  urlStyleFromSecret : Bool := false
  bearerToken : Text := []
  deriving DecidableEq, Repr

def initializeAuthParams (authParams : S3AuthParams) : S3AuthParams :=
  let authParams := applyProviderDefaults authParams
  if requiresExplicitEndpoint authParams && endpointIsUnresolved authParams then authParams
  else applyDerivedDefaults authParams

/-- The provider and whether the scheme is an alias, as routing left them. -/
def routedAuthParams (filePath : Text) : S3AuthParams :=
  let providerMatch := tryMatchUrl filePath
  { providerType := (providerMatch.map S3ProviderMatch.type).getD .s3
    schemeIsAlias := providerMatch.isNone }

def readAuthParams (settings : S3Settings) (filePath : Text) : S3AuthParams :=
  let routed := routedAuthParams filePath
  let result : S3AuthParams :=
    { routed with
      region := settings.region
      accessKeyId := settings.accessKeyId
      secretAccessKey := settings.secretAccessKey
      sessionToken := settings.sessionToken
      useSsl := settings.useSsl
      kmsKeyId := settings.kmsKeyId
      s3UrlCompatibilityMode := settings.s3UrlCompatibilityMode
      requesterPays := settings.requesterPays
      endpoint := settings.endpoint
      urlStyle := settings.urlStyle }
  let result :=
    if result.providerType = .gcs then
      { result with
        endpoint :=
          if result.endpoint.isEmpty || !settings.endpointFromSecret then
            "storage.googleapis.com".toList
          else result.endpoint
        urlStyle :=
          if result.urlStyle.isEmpty || !settings.urlStyleFromSecret then "path".toList
          else result.urlStyle
        oauth2BearerToken := settings.bearerToken }
    else result
  initializeAuthParams result

/-- `S3AuthParams::ReadFrom`; without an opener there are no settings. -/
def readFrom (settings? : Option (Text → S3Settings)) (filePath : Text) : S3AuthParams :=
  match settings? with
  | none => routedAuthParams filePath
  | some settings => readAuthParams (settings filePath) filePath

def S3AuthParams.setRegion (authParams : S3AuthParams) (newRegion : Text) :
    Except ErrorData S3AuthParams :=
  finalizeAuthParams { authParams with region := newRegion }

/-! ## The alias flag -/

@[simp]
theorem applyProviderDefaults_schemeIsAlias (authParams : S3AuthParams) :
    (applyProviderDefaults authParams).schemeIsAlias = authParams.schemeIsAlias := by
  unfold applyProviderDefaults
  split <;> rfl

@[simp]
theorem applyDerivedDefaults_schemeIsAlias (authParams : S3AuthParams) :
    (applyDerivedDefaults authParams).schemeIsAlias = authParams.schemeIsAlias := by
  unfold applyDerivedDefaults
  split
  · rfl
  · split <;> rfl

theorem readFrom_schemeIsAlias (settings? : Option (Text → S3Settings)) (filePath : Text) :
    (readFrom settings? filePath).schemeIsAlias = (tryMatchUrl filePath).isNone := by
  cases settings? with
  | none => rfl
  | some settings =>
      have initialized (authParams : S3AuthParams) :
          (initializeAuthParams authParams).schemeIsAlias = authParams.schemeIsAlias := by
        unfold initializeAuthParams
        dsimp only
        split <;> simp
      rw [readFrom, readAuthParams, initialized]
      split <;> rfl

theorem readQueryParams_schemeIsAlias {decode : Text → Text} {urlQueryParam : Text}
    {params read : S3AuthParams} (reads : readQueryParams decode urlQueryParam params = .ok read) :
    read.schemeIsAlias = params.schemeIsAlias := by
  unfold readQueryParams at reads
  split at reads
  · cases reads
    rfl
  · obtain ⟨queryParams, -, reads⟩ := bind_eq_ok_iff.mp reads
    obtain ⟨⟨useSsl, afterSsl⟩, -, reads⟩ := bind_eq_ok_iff.mp reads
    obtain ⟨⟨requesterPays, remaining⟩, -, reads⟩ := bind_eq_ok_iff.mp reads
    simp only at reads
    split at reads
    · contradiction
    · cases reads
      rfl

theorem finalizeAuthParams_schemeIsAlias {authParams finalized : S3AuthParams}
    (finalize : finalizeAuthParams authParams = .ok finalized) :
    finalized.schemeIsAlias = authParams.schemeIsAlias := by
  unfold finalizeAuthParams at finalize
  simp only at finalize
  split at finalize
  · split at finalize <;> contradiction
  · cases finalize
    simp

/-- The prefix of a parsed URL is the one its parsing found. -/
theorem parse_urlPrefix {url : Text} {params : S3AuthParams} {parsedUrl : ParsedS3Url}
    (parses : parse url params = .ok parsedUrl) : parsePrefix url = .ok parsedUrl.urlPrefix := by
  obtain ⟨urlPrefix, found, continues⟩ := bind_eq_ok_iff.mp parses
  rw [found]
  simp only at continues
  split at continues
  · contradiction
  · split at continues
    · contradiction
    · cases mode : params.s3UrlCompatibilityMode with
      | false =>
          simp only [mode, Bool.false_eq_true, if_false] at continues
          split at continues
          · contradiction
          · cases continues
            rfl
      | true =>
          simp only [mode, if_true] at continues
          split at continues
          · contradiction
          · cases continues
            rfl

/-- A prefix tells a built-in scheme from an alias. -/
theorem parsePrefix_isBuiltIn {url urlPrefix : Text} (found : parsePrefix url = .ok urlPrefix) :
    (tryMatchUrl url).isNone = true ↔
      ∀ providerMatch ∈ providerMatches, providerMatch.urlPrefix ≠ urlPrefix := by
  unfold parsePrefix at found
  cases builtin : tryMatchUrl url with
  | some providerMatch =>
      rw [builtin] at found
      cases found
      constructor
      · intro impossible
        contradiction
      · intro none
        exact absurd rfl (none providerMatch (List.mem_of_find?_eq_some builtin))
  | none =>
      rw [builtin] at found
      refine ⟨fun _ => ?_, fun _ => rfl⟩
      intro providerMatch member same
      cases separator : find "://".toList url with
      | none =>
          rw [separator] at found
          cases found
      | some schemeEnd =>
          rw [separator] at found
          cases found
          -- The URL starts with its own prefix, so the built-in scheme would have matched.
          have starts : startsWith (lower url) providerMatch.urlPrefix = true := by
            rw [same, startsWith_iff]
            exact (List.take_prefix _ _).map Char.toLower
          exact absurd starts (List.find?_eq_none.mp builtin providerMatch member)

/-- After a resolution the alias flag can be read off the prefix. -/
theorem resolve_schemeIsAlias {decode : Text → Text} {settings? : Option (Text → S3Settings)}
    {url : Text} {parsedUrl : ParsedS3Url} {authParams : S3AuthParams}
    (resolves : resolve decode url (readFrom settings? url) = .ok (parsedUrl, authParams)) :
    authParams.schemeIsAlias = true ↔
      ∀ providerMatch ∈ providerMatches, providerMatch.urlPrefix ≠ parsedUrl.urlPrefix := by
  rcases resolve_eq_ok_iff.mp resolves with ⟨first, read, -, reads, finalizes, parses⟩
  rw [finalizeAuthParams_schemeIsAlias finalizes, readQueryParams_schemeIsAlias reads,
    readFrom_schemeIsAlias]
  exact parsePrefix_isBuiltIn (parse_urlPrefix parses)

/-! ## Replacing the region -/

/-- The parameters that a region has no part in. -/
def S3AuthParams.credentials (authParams : S3AuthParams) : S3AuthParams :=
  { authParams with region := [], endpoint := [], urlStyle := [] }

def regionEndpoint (region : Text) : Text :=
  "s3.".toList ++ region ++ ".amazonaws.com".toList

theorem endpointIsAWS_regionEndpoint (region : Text) :
    endpointIsAWS (regionEndpoint region) = true := by
  have starts : startsWith (regionEndpoint region) "s3.".toList = true := by
    rw [regionEndpoint, List.append_assoc]
    exact startsWith_append _ _
  have ends : endsWith (regionEndpoint region) ".amazonaws.com".toList = true :=
    List.isSuffixOf_iff_suffix.mpr (List.suffix_append _ _)
  rw [endpointIsAWS, starts, ends, Bool.and_true, Bool.or_true]

/-- What the derived defaults change: nothing for an endpoint of another service,
else region and endpoint, and the endpoint stays one of the service. -/
theorem applyDerivedDefaults_cases (authParams : S3AuthParams) :
    endpointIsAWS authParams.endpoint = false ∧
        applyDerivedDefaults authParams = authParams ∨
      endpointIsAWS authParams.endpoint = true ∧ ∃ region endpoint,
        applyDerivedDefaults authParams = { authParams with region, endpoint } ∧
        endpointIsAWS endpoint = true ∧ trim endpoint ≠ [] ∧ endpoint ≠ [] ∧
        (authParams.region ≠ [] → region = authParams.region ∧ endpoint = regionEndpoint region) := by
  cases aws : endpointIsAWS authParams.endpoint with
  | false => exact .inl ⟨rfl, by rw [applyDerivedDefaults, aws, Bool.not_false, if_pos rfl]⟩
  | true =>
      refine .inr ⟨rfl, ?_⟩
      rw [applyDerivedDefaults, aws, Bool.not_true, if_neg Bool.false_ne_true]
      split
      · rename_i anonymous
        refine ⟨authParams.region, "s3.amazonaws.com".toList, rfl, by decide, by decide,
          by decide, ?_⟩
        intro named
        rw [Bool.and_eq_true, List.isEmpty_iff] at anonymous
        exact absurd anonymous.1 named
      · have member (region : Text) : 's' ∈ regionEndpoint region := List.mem_cons_self
        refine ⟨_, _, rfl, endpointIsAWS_regionEndpoint _, trim_ne_nil (member _) (by decide),
          List.cons_ne_nil _ _, ?_⟩
        intro named
        rw [if_neg (by simpa using named)]
        exact ⟨rfl, rfl⟩

/-- What the defaults of a provider change does not depend on the region. -/
theorem applyProviderDefaults_cases (authParams : S3AuthParams) :
    ∃ endpoint urlStyle, (∀ region, applyProviderDefaults { authParams with region } =
        { authParams with region, endpoint, urlStyle }) ∧
      (authParams.providerType = .gcs → endpoint ≠ [] ∧ urlStyle ≠ []) := by
  by_cases gcs : authParams.providerType = .gcs
  · refine ⟨if authParams.endpoint.isEmpty then "storage.googleapis.com".toList
        else authParams.endpoint,
      if authParams.urlStyle.isEmpty then "path".toList else authParams.urlStyle, ?_, ?_⟩
    · intro region
      rw [applyProviderDefaults, if_pos gcs]
    · intro _
      constructor
      · split
        · decide
        · rename_i set
          simpa using set
      · split
        · decide
        · rename_i set
          simpa using set
  · refine ⟨authParams.endpoint, authParams.urlStyle, ?_, fun other => absurd other gcs⟩
    intro region
    rw [applyProviderDefaults, if_neg gcs]

/-- Finalizing in three parts. -/
theorem finalizeAuthParams_eq (authParams : S3AuthParams) :
    (finalizeAuthParams authParams = .ok (applyDerivedDefaults (applyProviderDefaults authParams)) ∧
        (requiresExplicitEndpoint (applyProviderDefaults authParams) &&
          endpointIsUnresolved (applyProviderDefaults authParams)) = false) ∨
      (∃ error, finalizeAuthParams authParams = .error error) ∧
        (requiresExplicitEndpoint (applyProviderDefaults authParams) &&
          endpointIsUnresolved (applyProviderDefaults authParams)) = true := by
  rw [finalizeAuthParams]
  split
  · rename_i unresolved
    right
    refine ⟨?_, unresolved⟩
    split
    · exact ⟨_, rfl⟩
    · exact ⟨_, rfl⟩
  · rename_i resolved
    exact .inl ⟨rfl, Bool.not_eq_true _ ▸ resolved⟩

/-- Parameters after their region is set: the region, the endpoint of the region
where the endpoint is the service's own, and all else as before. -/
theorem S3AuthParams.setRegion_spec {authParams replaced : S3AuthParams} {region : Text}
    (sets : authParams.setRegion region = .ok replaced) :
    replaced.credentials = authParams.credentials ∧
      (region ≠ [] → replaced.region = region ∧
        (endpointIsAWS replaced.endpoint = true → replaced.endpoint = regionEndpoint region)) := by
  rcases applyProviderDefaults_cases authParams with ⟨endpoint, urlStyle, defaults, -⟩
  rw [S3AuthParams.setRegion] at sets
  rcases finalizeAuthParams_eq { authParams with region } with ⟨finalizes, -⟩ | ⟨⟨error, fails⟩, -⟩
  · rw [finalizes, defaults] at sets
    cases sets
    rcases applyDerivedDefaults_cases { authParams with region, endpoint, urlStyle } with
      ⟨other, same⟩ | ⟨aws, derived, derivedEndpoint, eq, -, -, -, named⟩
    · rw [same]
      refine ⟨rfl, fun _ => ⟨rfl, ?_⟩⟩
      intro impossible
      rw [other] at impossible
      contradiction
    · rw [eq]
      refine ⟨rfl, fun nonempty => ?_⟩
      rcases named nonempty with ⟨rfl, rfl⟩
      exact ⟨rfl, fun _ => rfl⟩
  · rw [fails] at sets
    contradiction

/-- The parameters with a region, an endpoint and a URL style of their own. -/
def S3AuthParams.placed (authParams : S3AuthParams) (urlStyle region endpoint : Text) :
    S3AuthParams :=
  { authParams with region, endpoint, urlStyle }

/-- The last region wins: a region that was set before leaves no trace. -/
theorem S3AuthParams.setRegion_setRegion {authParams replaced : S3AuthParams} {first : Text}
    (sets : authParams.setRegion first = .ok replaced) (last : Text) :
    replaced.setRegion last = authParams.setRegion last := by
  rcases applyProviderDefaults_cases authParams with ⟨endpoint, urlStyle, defaults, gcs⟩
  rw [S3AuthParams.setRegion] at sets
  rcases finalizeAuthParams_eq { authParams with region := first } with
    ⟨finalizes, resolved⟩ | ⟨⟨error, fails⟩, -⟩
  · rw [finalizes, defaults] at sets
    rw [defaults] at resolved
    -- What the first region left behind differs only in the region and an endpoint derived from it.
    obtain ⟨region, derived, replacedEq, nonempty, sameDerived⟩ : ∃ region derived,
        replaced = authParams.placed urlStyle region derived ∧
          (trim derived ≠ [] ∧ derived ≠ [] ∨ derived = endpoint) ∧
          applyDerivedDefaults (authParams.placed urlStyle last derived) =
            applyDerivedDefaults (authParams.placed urlStyle last endpoint) := by
      rcases applyDerivedDefaults_cases { authParams with region := first, endpoint, urlStyle } with
        ⟨-, same⟩ | ⟨aws, region, derived, eq, derivedAws, trimmed, nonempty, -⟩
      · rw [same] at sets
        cases sets
        exact ⟨first, endpoint, rfl, .inr rfl, rfl⟩
      · rw [eq] at sets
        cases sets
        refine ⟨region, derived, rfl, .inl ⟨trimmed, nonempty⟩, ?_⟩
        have derivedIsAws : endpointIsAWS (authParams.placed urlStyle last derived).endpoint = true :=
          derivedAws
        have isAws : endpointIsAWS (authParams.placed urlStyle last endpoint).endpoint = true := aws
        rw [applyDerivedDefaults, applyDerivedDefaults, derivedIsAws, isAws]
        rfl
    have kept : applyProviderDefaults (authParams.placed urlStyle last derived) =
        authParams.placed urlStyle last derived := by
      rw [applyProviderDefaults]
      split
      · rename_i isGcs
        rcases gcs isGcs with ⟨hasEndpoint, hasStyle⟩
        have hasDerived : derived ≠ [] := by
          rcases nonempty with ⟨-, hasDerived⟩ | rfl
          · exact hasDerived
          · exact hasEndpoint
        simp [S3AuthParams.placed, hasDerived, hasStyle]
      · rfl
    have again : finalizeAuthParams (authParams.placed urlStyle last derived) =
        .ok (applyDerivedDefaults (authParams.placed urlStyle last derived)) := by
      rcases finalizeAuthParams_eq (authParams.placed urlStyle last derived) with
        ⟨ends, -⟩ | ⟨-, unresolved⟩
      · rw [ends, kept]
      · exfalso
        rw [kept, Bool.and_eq_true] at unresolved
        rcases nonempty with ⟨trimmed, -⟩ | rfl
        · exact trimmed (List.isEmpty_iff.mp unresolved.2)
        · rw [Bool.and_eq_false_iff] at resolved
          rcases resolved with notRequired | hasEndpoint
          · exact Bool.false_ne_true (notRequired.symm.trans unresolved.1)
          · exact Bool.false_ne_true (hasEndpoint.symm.trans unresolved.2)
    have direct : finalizeAuthParams { authParams with region := last } =
        .ok (applyDerivedDefaults (authParams.placed urlStyle last endpoint)) := by
      rcases finalizeAuthParams_eq { authParams with region := last } with
        ⟨ends, -⟩ | ⟨-, unresolved⟩
      · rw [ends, defaults]
        rfl
      · rw [defaults] at unresolved
        exact absurd (resolved.symm.trans unresolved) Bool.false_ne_true
    calc replaced.setRegion last
      _ = finalizeAuthParams (authParams.placed urlStyle last derived) := by
        rw [replacedEq]
        rfl
      _ = authParams.setRegion last := by
        rw [again, sameDerived, S3AuthParams.setRegion, direct]
  · rw [fails] at sets
    contradiction

end Httpfs.S3
