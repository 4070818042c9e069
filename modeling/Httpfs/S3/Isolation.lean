import Httpfs.S3.Auth
import Httpfs.Text.Percent

/-!
# The endpoint of an aliased scheme and of R2

Signed requests go to the endpoint.  For URLs that are not of the service
itself, the endpoint has to be named by the user: in a secret, in a setting or
in the query string of the URL, which is read last.  No default names one, and
only a named endpoint of the service is replaced by the one of its region.
-/

namespace Httpfs.S3

open Text

/-! ## What the defaults do to an endpoint -/

/-- The endpoint is the service's own: `s3.amazonaws.com`, or one with a region
in between. -/
def NamesService (endpoint : Text) : Prop :=
  endpoint = "s3.amazonaws.com".toList ∨ ∃ region, endpoint = regionEndpoint region

theorem namesService_iff {endpoint : Text} (named : endpoint ≠ []) :
    NamesService endpoint ↔ endpointIsAWS endpoint = true := by
  constructor
  · rintro (rfl | ⟨region, rfl⟩)
    · decide
    · exact endpointIsAWS_regionEndpoint region
  · intro aws
    simp only [endpointIsAWS, Bool.or_eq_true, List.isEmpty_iff, Bool.and_eq_true] at aws
    rcases aws with empty | ⟨starts, ends⟩
    · exact absurd empty named
    · rcases startsWith_iff.mp starts with ⟨rest, rfl⟩
      rcases List.isSuffixOf_iff_suffix.mp ends with ⟨front, eq⟩
      rcases List.append_eq_append_iff.mp eq with ⟨middle, short, long⟩ | ⟨middle, rfl, rfl⟩
      · -- The dot behind `s3` may be the one before `amazonaws`.
        rcases front with _ | ⟨first, _ | ⟨second, _ | ⟨third, front⟩⟩⟩
        · cases short
          cases long
        · cases short
          cases long
        · cases short
          cases long
          exact .inl rfl
        · have rest : [] = front ++ middle := congrArg (List.drop 3) short
          rcases List.append_eq_nil_iff.mp rest.symm with ⟨rfl, rfl⟩
          rw [List.nil_append] at long
          rw [← long]
          exact .inr ⟨[], rfl⟩
      · exact .inr ⟨middle, by rw [regionEndpoint, List.append_assoc]⟩

/-- A derived endpoint of the service is the one of the final region. -/
theorem applyDerivedDefaults_endpoint (authParams : S3AuthParams)
    (aws : endpointIsAWS authParams.endpoint = true) :
    (applyDerivedDefaults authParams).endpoint = "s3.amazonaws.com".toList ∨
      (applyDerivedDefaults authParams).endpoint =
        regionEndpoint (applyDerivedDefaults authParams).region := by
  rw [applyDerivedDefaults, aws, Bool.not_true, if_neg Bool.false_ne_true]
  split
  · exact .inl rfl
  · exact .inr rfl

/-- Parameters that must name their endpoint and are not of a service with a
default one. -/
structure NeedsEndpoint (authParams : S3AuthParams) : Prop where
  explicit : requiresExplicitEndpoint authParams = true
  notGcs : authParams.providerType ≠ .gcs

/-- What has become of the endpoint that was named. -/
structure Isolated (named : Text) (authParams : S3AuthParams) : Prop where
  same : ¬ NamesService named → authParams.endpoint = named
  service : NamesService named → authParams.endpoint = "s3.amazonaws.com".toList ∨
    authParams.endpoint = regionEndpoint authParams.region

theorem namesService_ne_nil {endpoint : Text} (service : NamesService endpoint) :
    endpoint ≠ [] ∧ trim endpoint ≠ [] := by
  have nonempty : endpoint ≠ [] := by
    rcases service with rfl | ⟨region, rfl⟩
    · decide
    · exact List.cons_ne_nil _ _
  have member : 's' ∈ endpoint := by
    rcases service with rfl | ⟨region, rfl⟩
    · decide
    · exact List.mem_cons_self
  exact ⟨nonempty, trim_ne_nil member (by decide)⟩

theorem applyProviderDefaults_of_notGcs {authParams : S3AuthParams}
    (notGcs : authParams.providerType ≠ .gcs) : applyProviderDefaults authParams = authParams :=
  if_neg notGcs

theorem NeedsEndpoint.applyDerivedDefaults {authParams : S3AuthParams}
    (needs : NeedsEndpoint authParams) : NeedsEndpoint (applyDerivedDefaults authParams) := by
  rcases applyDerivedDefaults_cases authParams with ⟨-, same⟩ | ⟨-, region, endpoint, eq, -⟩
  · rwa [same]
  · rw [eq]
    exact ⟨needs.explicit, needs.notGcs⟩

/-- The defaults keep a named endpoint, or keep it one of the service. -/
theorem applyDerivedDefaults_isolated (authParams : S3AuthParams)
    (named : authParams.endpoint ≠ []) :
    Isolated authParams.endpoint (applyDerivedDefaults authParams) := by
  constructor
  · intro other
    rw [namesService_iff named, Bool.not_eq_true] at other
    rw [applyDerivedDefaults, other, Bool.not_false, if_pos rfl]
  · intro service
    exact applyDerivedDefaults_endpoint authParams ((namesService_iff named).mp service)

/-- An endpoint that stands for a named one: the same, or one of the service for
one of the service. -/
structure StandsFor (named endpoint : Text) : Prop where
  same : ¬ NamesService named → endpoint = named
  service : NamesService named → NamesService endpoint

theorem StandsFor.refl (named : Text) : StandsFor named named :=
  ⟨fun _ => rfl, id⟩

theorem Isolated.standsFor {named : Text} {authParams : S3AuthParams}
    (isolated : Isolated named authParams) : StandsFor named authParams.endpoint where
  same := isolated.same
  service service := (isolated.service service).imp id fun eq => ⟨_, eq⟩

theorem StandsFor.ne_nil {named endpoint : Text} (stands : StandsFor named endpoint)
    (visible : trim named ≠ []) : endpoint ≠ [] ∧ trim endpoint ≠ [] := by
  by_cases service : NamesService named
  · exact namesService_ne_nil (stands.service service)
  · rw [stands.same service]
    refine ⟨?_, visible⟩
    rintro rfl
    exact visible rfl

/-- Defaults derived for an endpoint that stands for a named one. -/
theorem StandsFor.isolated {named : Text} {authParams : S3AuthParams}
    (stands : StandsFor named authParams.endpoint) (visible : trim named ≠ []) :
    Isolated named (applyDerivedDefaults authParams) := by
  have derived := applyDerivedDefaults_isolated authParams (stands.ne_nil visible).1
  constructor
  · intro other
    have same := stands.same other
    rw [same] at derived
    exact derived.same other
  · intro service
    exact derived.service (stands.service service)

/-! ## The two phases -/

theorem initializeAuthParams_cases {authParams : S3AuthParams}
    (needs : NeedsEndpoint authParams) :
    (trim authParams.endpoint = [] ∧ initializeAuthParams authParams = authParams) ∨
      (trim authParams.endpoint ≠ [] ∧
        initializeAuthParams authParams = applyDerivedDefaults authParams) := by
  rw [initializeAuthParams, applyProviderDefaults_of_notGcs needs.notGcs]
  simp only [needs.explicit, endpointIsUnresolved, Bool.true_and, List.isEmpty_iff]
  by_cases blank : trim authParams.endpoint = []
  · exact .inl ⟨blank, if_pos blank⟩
  · exact .inr ⟨blank, if_neg blank⟩

theorem finalizeAuthParams_cases {authParams : S3AuthParams} (needs : NeedsEndpoint authParams) :
    (trim authParams.endpoint = [] ∧ ∃ error, finalizeAuthParams authParams = .error error) ∨
      (trim authParams.endpoint ≠ [] ∧
        finalizeAuthParams authParams = .ok (applyDerivedDefaults authParams)) := by
  rcases finalizeAuthParams_eq authParams with ⟨finalizes, resolved⟩ | ⟨fails, unresolved⟩
  · rw [applyProviderDefaults_of_notGcs needs.notGcs] at finalizes resolved
    refine .inr ⟨?_, finalizes⟩
    simpa [needs.explicit, endpointIsUnresolved] using resolved
  · rw [applyProviderDefaults_of_notGcs needs.notGcs] at unresolved
    refine .inl ⟨?_, fails⟩
    simpa [needs.explicit, endpointIsUnresolved] using unresolved

theorem initializeAuthParams_standsFor {authParams : S3AuthParams}
    (needs : NeedsEndpoint authParams) :
    NeedsEndpoint (initializeAuthParams authParams) ∧
      (trim authParams.endpoint = [] →
        (initializeAuthParams authParams).endpoint = authParams.endpoint) ∧
      (trim authParams.endpoint ≠ [] →
        StandsFor authParams.endpoint (initializeAuthParams authParams).endpoint) := by
  rcases initializeAuthParams_cases needs with ⟨blank, same⟩ | ⟨visible, derived⟩
  · rw [same]
    exact ⟨needs, fun _ => rfl, fun visible => absurd blank visible⟩
  · rw [derived]
    exact ⟨needs.applyDerivedDefaults, fun blank => absurd blank visible,
      fun _ => ((StandsFor.refl _).isolated visible).standsFor⟩

/-- Finalizing parameters whose endpoint stands for a named one. -/
theorem StandsFor.finalizeAuthParams {named : Text} {authParams : S3AuthParams}
    (stands : StandsFor named authParams.endpoint) (needs : NeedsEndpoint authParams)
    (visible : trim named ≠ []) :
    ∃ finalized, finalizeAuthParams authParams = .ok finalized ∧ Isolated named finalized ∧
      NeedsEndpoint finalized := by
  rcases finalizeAuthParams_cases needs with ⟨blank, -⟩ | ⟨-, finalizes⟩
  · exact absurd blank (stands.ne_nil visible).2
  · exact ⟨_, finalizes, stands.isolated visible, needs.applyDerivedDefaults⟩

theorem Isolated.setRegions {named : Text} (visible : trim named ≠ []) (regions : List Text)
    {authParams : S3AuthParams} (isolated : Isolated named authParams)
    (needs : NeedsEndpoint authParams) :
    ∃ final, regions.foldlM S3AuthParams.setRegion authParams = .ok final ∧
      Isolated named final := by
  induction regions generalizing authParams with
  | nil => exact ⟨authParams, rfl, isolated⟩
  | cons region regions inductionHypothesis =>
      have needsRegion : NeedsEndpoint { authParams with region } :=
        ⟨needs.explicit, needs.notGcs⟩
      have stands : StandsFor named ({ authParams with region } : S3AuthParams).endpoint :=
        isolated.standsFor
      rcases stands.finalizeAuthParams needsRegion visible with
        ⟨replaced, sets, still, stillNeeds⟩
      rcases inductionHypothesis still stillNeeds with ⟨final, rest, lasts⟩
      refine ⟨final, ?_, lasts⟩
      rw [List.foldlM_cons, S3AuthParams.setRegion, sets]
      exact rest

/-! ## The query string -/

/-- The endpoint in effect: that of the query string if it has one, else the one
supplied before. -/
def endpointInEffect (decode : Text → Text) (supplied urlQueryParam : Text) : Text :=
  match parseQueryParameters decode urlQueryParam with
  | .ok queryParams => (queryParams.lookup "s3_endpoint".toList).getD supplied
  | .error _ => supplied

theorem lookup_filter_ne {key other : Text} (different : key ≠ other)
    (queryParams : QueryParams) :
    (queryParams.filter fun entry => entry.1 ≠ other).lookup key = queryParams.lookup key := by
  induction queryParams with
  | nil => rfl
  | cons entry rest inductionHypothesis =>
      rcases entry with ⟨name, value⟩
      by_cases dropped : name = other
      · have missed : (key == name) = false := by
          simpa [dropped] using different
        rw [List.filter_cons_of_neg (by simp [dropped]), inductionHypothesis, List.lookup_cons,
          missed]
      · rw [List.filter_cons_of_pos (by simp [dropped]), List.lookup_cons, List.lookup_cons,
          inductionHypothesis]

theorem lookup_getQueryParam {key other param : Text} (different : key ≠ other)
    (queryParams : QueryParams) :
    (getQueryParam other param queryParams).2.lookup key = queryParams.lookup key := by
  unfold getQueryParam
  split
  · exact lookup_filter_ne different queryParams
  · rfl

theorem getQueryParam_value (key param : Text) (queryParams : QueryParams) :
    (getQueryParam key param queryParams).1 = (queryParams.lookup key).getD param := by
  unfold getQueryParam
  split
  · rename_i found
    rw [found]
    rfl
  · rename_i missing
    rw [missing]
    rfl

/-- The query string decides the endpoint and leaves the provider alone. -/
theorem readQueryParams_endpoint {decode : Text → Text} {urlQueryParam : Text}
    {params read : S3AuthParams} (reads : readQueryParams decode urlQueryParam params = .ok read) :
    read.endpoint = endpointInEffect decode params.endpoint urlQueryParam ∧
      read.providerType = params.providerType ∧ read.schemeIsAlias = params.schemeIsAlias := by
  refine ⟨?_, ?_, readQueryParams_schemeIsAlias reads⟩
  all_goals
    unfold readQueryParams at reads
    split at reads
  · rename_i empty
    rw [List.isEmpty_iff] at empty
    cases reads
    subst empty
    rfl
  · rcases bind_eq_ok_iff.mp reads with ⟨queryParams, parses, reads⟩
    rcases bind_eq_ok_iff.mp reads with ⟨⟨useSsl, afterSsl⟩, -, reads⟩
    rcases bind_eq_ok_iff.mp reads with ⟨⟨requesterPays, remaining⟩, -, reads⟩
    simp only at reads
    split at reads
    · contradiction
    · rw [← Except.ok.inj reads, endpointInEffect, parses]
      change (getQueryParam "s3_endpoint".toList params.endpoint
        (getQueryParam "s3_session_token".toList params.sessionToken
          (getQueryParam "s3_secret_access_key".toList params.secretAccessKey
            (getQueryParam "s3_access_key_id".toList params.accessKeyId
              (getQueryParam "s3_region".toList params.region queryParams).2).2).2).2).1 = _
      rw [getQueryParam_value, lookup_getQueryParam (by decide), lookup_getQueryParam (by decide),
        lookup_getQueryParam (by decide), lookup_getQueryParam (by decide)]
  · cases reads
    rfl
  · rcases bind_eq_ok_iff.mp reads with ⟨queryParams, -, reads⟩
    rcases bind_eq_ok_iff.mp reads with ⟨⟨useSsl, afterSsl⟩, -, reads⟩
    rcases bind_eq_ok_iff.mp reads with ⟨⟨requesterPays, remaining⟩, -, reads⟩
    simp only at reads
    split at reads
    · contradiction
    · cases reads
      rfl

/-! ## Resolving a URL -/

/-- Parsing fails or not whatever the endpoint, and cuts the same query string. -/
theorem parse_parameters {url : Text} {params other : S3AuthParams} {parsedUrl : ParsedS3Url}
    (mode : other.s3UrlCompatibilityMode = params.s3UrlCompatibilityMode)
    (parses : parse url params = .ok parsedUrl) :
    ∃ again, parse url other = .ok again ∧ again.queryParam = parsedUrl.queryParam := by
  cases isPrefix : parsePrefix url with
  | error error =>
      rw [parse, isPrefix] at parses
      contradiction
  | ok urlPrefix =>
      simp only [parse, isPrefix, bind, Except.bind] at parses ⊢
      cases slash : findFrom '/' url (((find "//".toList url).map (· + 2)).getD 1) with
      | none =>
          rw [slash] at parses
          contradiction
      | some slashPos =>
          rw [slash] at parses
          dsimp only at parses ⊢
          rw [mode]
          generalize (if params.s3UrlCompatibilityMode then ([], url, substrFrom url slashPos)
            else splitQuery url slashPos) = parts at parses ⊢
          split at parses
          · contradiction
          · rename_i bucket
            rw [if_neg bucket]
            split at parses
            · contradiction
            · rename_i key
              rw [if_neg key]
              cases parses
              exact ⟨_, rfl, rfl⟩

/-- The query string that resolving the URL reads. -/
def urlQueryParam (url : Text) (params : S3AuthParams) : Text :=
  match parse url params with
  | .ok parsedUrl => parsedUrl.queryParam
  | .error _ => []

/-- Resolving a URL whose endpoint has to be named: it fails without one, and
with one it goes there. -/
theorem NeedsEndpoint.resolve {decode : Text → Text} {url : Text} {supplied : S3AuthParams}
    (needs : NeedsEndpoint supplied) {effective : Text}
    (isEffective : effective = endpointInEffect decode supplied.endpoint
      (urlQueryParam url (initializeAuthParams supplied))) :
    (trim effective = [] →
      ∃ error, resolve decode url (initializeAuthParams supplied) = .error error) ∧
    (∀ parsedUrl resolved,
      resolve decode url (initializeAuthParams supplied) = .ok (parsedUrl, resolved) →
        trim effective ≠ [] ∧ Isolated effective resolved ∧ NeedsEndpoint resolved) ∧
    (trim effective ≠ [] → ∀ first read, parse url (initializeAuthParams supplied) = .ok first →
      readQueryParams decode first.queryParam (initializeAuthParams supplied) = .ok read →
      ∃ parsedUrl resolved,
        resolve decode url (initializeAuthParams supplied) = .ok (parsedUrl, resolved)) := by
  rcases initializeAuthParams_standsFor needs with ⟨needsParams, blankKept, stands⟩
  -- What is read stands for the endpoint in effect.
  have reading : ∀ first read, parse url (initializeAuthParams supplied) = .ok first →
      readQueryParams decode first.queryParam (initializeAuthParams supplied) = .ok read →
      NeedsEndpoint read ∧ (trim effective = [] → trim read.endpoint = []) ∧
        (trim effective ≠ [] → StandsFor effective read.endpoint) := by
    intro first read parses reads
    rcases readQueryParams_endpoint reads with ⟨isEndpoint, sameProvider, sameAlias⟩
    have query : urlQueryParam url (initializeAuthParams supplied) = first.queryParam := by
      rw [urlQueryParam, parses]
    rw [query] at isEffective
    refine ⟨⟨?_, ?_⟩, ?_⟩
    · rw [requiresExplicitEndpoint, sameProvider, sameAlias]
      exact needsParams.explicit
    · rw [sameProvider]
      exact needsParams.notGcs
    · rw [isEndpoint, isEffective]
      unfold endpointInEffect
      cases parsed : parseQueryParameters decode first.queryParam with
      | error =>
          dsimp only
          exact ⟨fun blank => by rw [blankKept blank, blank], stands⟩
      | ok queryParams =>
          dsimp only
          cases queryParams.lookup "s3_endpoint".toList with
          | none =>
              refine ⟨fun blank => ?_, stands⟩
              rw [Option.getD_none, blankKept blank]
              exact blank
          | some value => exact ⟨id, fun _ => StandsFor.refl value⟩
  refine ⟨?_, ?_, ?_⟩
  · intro blank
    cases resolves : S3.resolve decode url (initializeAuthParams supplied) with
    | error error => exact ⟨error, rfl⟩
    | ok result =>
        exfalso
        rcases resolve_eq_ok_iff.mp resolves with ⟨first, read, parses, reads, finalizes, -⟩
        rcases reading first read parses reads with ⟨needsRead, blankRead, -⟩
        rcases finalizeAuthParams_cases needsRead with ⟨-, error, fails⟩ | ⟨visible, -⟩
        · rw [fails] at finalizes
          contradiction
        · exact visible (blankRead blank)
  · intro parsedUrl resolved resolves
    rcases resolve_eq_ok_iff.mp resolves with ⟨first, read, parses, reads, finalizes, -⟩
    rcases reading first read parses reads with ⟨needsRead, blankRead, standsRead⟩
    have visible : trim effective ≠ [] := by
      intro blank
      rcases finalizeAuthParams_cases needsRead with ⟨-, error, fails⟩ | ⟨visible, -⟩
      · rw [fails] at finalizes
        contradiction
      · exact visible (blankRead blank)
    rcases (standsRead visible).finalizeAuthParams needsRead visible with
      ⟨finalized, also, isolated, needsFinal⟩
    rw [finalizes] at also
    cases also
    exact ⟨visible, isolated, needsFinal⟩
  · intro visible first read parses reads
    rcases reading first read parses reads with ⟨needsRead, -, standsRead⟩
    rcases (standsRead visible).finalizeAuthParams needsRead visible with
      ⟨finalized, finalizes, -, -⟩
    have mode : finalized.s3UrlCompatibilityMode =
        (initializeAuthParams supplied).s3UrlCompatibilityMode := by
      rw [finalizeAuthParams_compatibility finalizes, readQueryParams_compatibility reads]
    rcases parse_parameters mode parses with ⟨parsedUrl, again, -⟩
    exact ⟨parsedUrl, finalized,
      resolve_eq_ok_iff.mpr ⟨first, read, parses, reads, finalizes, again⟩⟩

/-! ## Finalizing twice -/

theorem applyDerivedDefaults_idempotent (authParams : S3AuthParams) :
    applyDerivedDefaults (applyDerivedDefaults authParams) = applyDerivedDefaults authParams := by
  cases aws : endpointIsAWS authParams.endpoint with
  | false =>
      have same : applyDerivedDefaults authParams = authParams := by
        rw [applyDerivedDefaults, aws, Bool.not_false, if_pos rfl]
      rw [same, same]
  | true =>
      cases anonymous : authParams.region.isEmpty && authParams.accessKeyId.isEmpty with
      | true =>
        have global (other : S3AuthParams) (isAws : endpointIsAWS other.endpoint = true)
            (nobody : (other.region.isEmpty && other.accessKeyId.isEmpty) = true) :
            applyDerivedDefaults other = { other with endpoint := "s3.amazonaws.com".toList } := by
          rw [applyDerivedDefaults, isAws, nobody]
          rfl
        rw [global authParams aws anonymous]
        have again : endpointIsAWS "s3.amazonaws.com".toList = true := by decide
        exact global _ again anonymous
      | false =>
        -- The first pass leaves a region, and the second one keeps it.
        obtain ⟨region, nonempty, regional⟩ : ∃ region, region ≠ [] ∧
            applyDerivedDefaults authParams =
              { authParams with region, endpoint := regionEndpoint region } := by
          refine ⟨if authParams.region.isEmpty then "us-east-1".toList else authParams.region, ?_, ?_⟩
          · split
            · decide
            · rename_i given
              simpa using given
          · rw [applyDerivedDefaults, aws, anonymous]
            rfl
        rw [regional, applyDerivedDefaults, endpointIsAWS_regionEndpoint, Bool.not_true,
          if_neg Bool.false_ne_true]
        have given : region.isEmpty = false := by simpa using nonempty
        dsimp only
        rw [given, Bool.false_and]
        rfl

theorem finalizeAuthParams_idempotent {authParams finalized : S3AuthParams}
    (finalizes : finalizeAuthParams authParams = .ok finalized) :
    finalizeAuthParams finalized = .ok finalized := by
  rcases applyProviderDefaults_cases authParams with ⟨endpoint, urlStyle, defaults, gcs⟩
  have provided := defaults authParams.region
  rcases finalizeAuthParams_eq authParams with ⟨ends, resolved⟩ | ⟨⟨error, fails⟩, -⟩
  · rw [ends] at finalizes
    cases finalizes
    rw [show ({ authParams with region := authParams.region } : S3AuthParams) = authParams from rfl]
      at provided
    rw [provided] at resolved ⊢
    -- The second pass finds the same provider, and an endpoint where the first one found one.
    obtain ⟨region, derived, placed, kept⟩ : ∃ region derived,
        applyDerivedDefaults (authParams.placed urlStyle authParams.region endpoint) =
          authParams.placed urlStyle region derived ∧
        (derived = endpoint ∨ trim derived ≠ [] ∧ derived ≠ []) := by
      rcases applyDerivedDefaults_cases
          (authParams.placed urlStyle authParams.region endpoint) with
        ⟨-, same⟩ | ⟨-, region, derived, eq, -, trimmed, nonempty, -⟩
      · exact ⟨authParams.region, endpoint, same, .inl rfl⟩
      · exact ⟨region, derived, eq, .inr ⟨trimmed, nonempty⟩⟩
    have unchanged : applyProviderDefaults (authParams.placed urlStyle region derived) =
        authParams.placed urlStyle region derived := by
      rw [applyProviderDefaults]
      split
      · rename_i isGcs
        rcases gcs isGcs with ⟨hasEndpoint, hasStyle⟩
        have hasDerived : derived ≠ [] := by
          rcases kept with rfl | ⟨-, hasDerived⟩
          · exact hasEndpoint
          · exact hasDerived
        simp [S3AuthParams.placed, hasDerived, hasStyle]
      · rfl
    have twice := applyDerivedDefaults_idempotent
      (authParams.placed urlStyle authParams.region endpoint)
    change finalizeAuthParams
        (applyDerivedDefaults (authParams.placed urlStyle authParams.region endpoint)) =
      .ok (applyDerivedDefaults (authParams.placed urlStyle authParams.region endpoint))
    rw [placed] at twice ⊢
    rcases finalizeAuthParams_eq (authParams.placed urlStyle region derived) with
      ⟨again, -⟩ | ⟨-, unresolved⟩
    · rw [again, unchanged, twice]
    · exfalso
      rw [unchanged, Bool.and_eq_true] at unresolved
      rcases kept with rfl | ⟨trimmed, -⟩
      · rw [Bool.and_eq_false_iff] at resolved
        rcases resolved with notRequired | hasEndpoint
        · exact Bool.false_ne_true (notRequired.symm.trans unresolved.1)
        · exact Bool.false_ne_true (hasEndpoint.symm.trans unresolved.2)
      · exact trimmed (List.isEmpty_iff.mp unresolved.2)
  · rw [fails] at finalizes
    contradiction

/-! ## From the settings to the endpoint -/

/-- A URL of a scheme alias, or of R2. -/
def RoutedWithoutDefault (url : Text) : Prop :=
  tryMatchUrl url = none ∨ ∃ providerMatch, tryMatchUrl url = some providerMatch ∧
    providerMatch.type = .r2

/-- What was supplied for such a URL, before any default. -/
theorem RoutedWithoutDefault.readAuthParams {url : Text} (routed : RoutedWithoutDefault url)
    (settings : S3Settings) :
    ∃ supplied, readAuthParams settings url = initializeAuthParams supplied ∧
      supplied.endpoint = settings.endpoint ∧ NeedsEndpoint supplied := by
  have notGcs : (routedAuthParams url).providerType ≠ .gcs := by
    rcases routed with noMatch | ⟨providerMatch, found, isR2⟩
    · simp [routedAuthParams, noMatch]
    · simp [routedAuthParams, found, isR2]
  have explicit : requiresExplicitEndpoint (routedAuthParams url) = true := by
    rcases routed with noMatch | ⟨providerMatch, found, isR2⟩
    · simp [requiresExplicitEndpoint, routedAuthParams, noMatch]
    · simp [requiresExplicitEndpoint, routedAuthParams, found, isR2]
  let supplied : S3AuthParams :=
    { routedAuthParams url with
      region := settings.region
      accessKeyId := settings.accessKeyId
      secretAccessKey := settings.secretAccessKey
      sessionToken := settings.sessionToken
      useSsl := settings.useSsl
      kmsKeyId := settings.kmsKeyId
      s3UrlCompatibilityMode := settings.s3UrlCompatibilityMode
      requesterPays := settings.requesterPays
      endpoint := settings.endpoint
      urlStyle := settings.urlStyle }
  refine ⟨supplied, ?_, rfl, explicit, notGcs⟩
  rw [S3.readAuthParams]
  dsimp only
  rw [if_neg notGcs]

/-- A request to a URL of a scheme alias or of R2 goes to the endpoint that was
named, in the query string or else in the secrets and settings, and fails if none
was.  Only an endpoint of the service gives way to the one of the final region.
That holds after any redirects, because finalizing again changes nothing and only
the last region counts. -/
theorem resolve_namedEndpoint (decode : Text → Text) (settings : S3Settings) (url : Text)
    (routed : RoutedWithoutDefault url) {effective : Text}
    (isEffective : effective = endpointInEffect decode settings.endpoint
      (urlQueryParam url (readAuthParams settings url))) :
    (trim effective = [] →
      ∃ error, resolve decode url (readAuthParams settings url) = .error error) ∧
    (∀ parsedUrl resolved,
      resolve decode url (readAuthParams settings url) = .ok (parsedUrl, resolved) →
        ∀ regions : List Text, ∃ final, regions.foldlM S3AuthParams.setRegion resolved = .ok final ∧
          Isolated effective final) ∧
    (trim effective ≠ [] → ∀ first read, parse url (readAuthParams settings url) = .ok first →
      readQueryParams decode first.queryParam (readAuthParams settings url) = .ok read →
      ∃ parsedUrl resolved,
        resolve decode url (readAuthParams settings url) = .ok (parsedUrl, resolved)) ∧
    (∀ authParams finalized, finalizeAuthParams authParams = .ok finalized →
      finalizeAuthParams finalized = .ok finalized) ∧
    (∀ (authParams replaced : S3AuthParams) (first last : Text),
      authParams.setRegion first = .ok replaced →
        replaced.setRegion last = authParams.setRegion last) := by
  rcases routed.readAuthParams settings with ⟨supplied, reads, sameEndpoint, needs⟩
  rw [reads] at isEffective ⊢
  rw [← sameEndpoint] at isEffective
  rcases needs.resolve isEffective with ⟨blank, resolves, named⟩
  refine ⟨blank, ?_, named, ?_, ?_⟩
  · intro parsedUrl resolved ok regions
    rcases resolves parsedUrl resolved ok with ⟨visible, isolated, needsStill⟩
    exact isolated.setRegions visible regions needsStill
  · intro authParams finalized finalizes
    exact finalizeAuthParams_idempotent finalizes
  · intro authParams replaced first last sets
    exact S3AuthParams.setRegion_setRegion sets last

/-- A successful computation, told by what is read off its result. -/
theorem exists_of_map_eq_ok {α β : Type} {read : α → β} {computation : Except ErrorData α} {value : β}
    (reads : computation.map read = .ok value) :
    ∃ result, computation = .ok result ∧ read result = value := by
  cases computation with
  | error error => contradiction
  | ok result => exact ⟨result, rfl, Except.ok.inj reads⟩

/-- An alias with an endpoint of another service in its settings. -/
theorem resolve_namedEndpoint_alias :
    ∃ resolved, (∃ parsedUrl, resolve Percent.decode "oss://bucket/key".toList
        (readAuthParams { endpoint := "minio:9000".toList, region := "eu-west-1".toList }
          "oss://bucket/key".toList) = .ok (parsedUrl, resolved)) ∧
      ∃ final, ["us-east-2".toList].foldlM S3AuthParams.setRegion resolved = .ok final ∧
        final.endpoint = "minio:9000".toList := by
  have results := resolve_namedEndpoint Percent.decode
    { endpoint := "minio:9000".toList, region := "eu-west-1".toList } "oss://bucket/key".toList
    (.inl (by decide)) rfl
  have other : ¬ NamesService "minio:9000".toList := by
    rw [namesService_iff (by decide)]
    decide
  have resolves : (resolve Percent.decode "oss://bucket/key".toList
      (readAuthParams { endpoint := "minio:9000".toList, region := "eu-west-1".toList }
        "oss://bucket/key".toList)).map (fun result => result.2.endpoint) =
      .ok "minio:9000".toList := by
    decide
  rcases exists_of_map_eq_ok resolves with ⟨⟨parsedUrl, resolved⟩, resolves, -⟩
  rcases results.2.1 parsedUrl resolved resolves ["us-east-2".toList] with
    ⟨final, sets, isolated⟩
  exact ⟨resolved, ⟨parsedUrl, resolves⟩, final, sets, isolated.same other⟩

/-- The endpoint `s3.amazonaws.com` is not of the form of a region's endpoint,
and a region replaces it all the same. -/
theorem resolve_namedEndpoint_service :
    ∃ parsedUrl resolved, resolve Percent.decode "oss://bucket/key".toList
        (readAuthParams { endpoint := "s3.amazonaws.com".toList, region := "eu-west-1".toList }
          "oss://bucket/key".toList) = .ok (parsedUrl, resolved) ∧
      (∀ region, "s3.amazonaws.com".toList ≠ regionEndpoint region) ∧
      resolved.endpoint ≠ "s3.amazonaws.com".toList ∧
      resolved.endpoint = "s3.eu-west-1.amazonaws.com".toList := by
  have resolves : (resolve Percent.decode "oss://bucket/key".toList
      (readAuthParams { endpoint := "s3.amazonaws.com".toList, region := "eu-west-1".toList }
        "oss://bucket/key".toList)).map (fun result => result.2.endpoint) =
      .ok "s3.eu-west-1.amazonaws.com".toList := by
    decide
  rcases exists_of_map_eq_ok resolves with ⟨⟨parsedUrl, resolved⟩, resolves, isRegional⟩
  refine ⟨parsedUrl, resolved, resolves, ?_, ?_, isRegional⟩
  · intro region same
    have length := congrArg List.length same
    rw [regionEndpoint, List.length_append, List.length_append] at length
    have short : "s3.amazonaws.com".toList.length = 16 := rfl
    have front : "s3.".toList.length = 3 := rfl
    have back : ".amazonaws.com".toList.length = 14 := rfl
    omega
  · change resolved.endpoint = _ at isRegional
    rw [isRegional]
    decide

end Httpfs.S3
