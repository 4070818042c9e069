import Httpfs.Http.ConnectionCache.Client

/-!
# Reusing a client

Between two requests a client is like a new one: what a request set is put back, or
set again by every request.  Parked in the cache, a client only keeps what its
handle was made with, and initializing it makes it like a new one again.
-/

namespace Httpfs.Http.ConnectionCache

open Text
open Httpfs.Options

/-- The options that every request sets and none puts back. -/
def scratchOptions : List CURLoption :=
  [.url, .curlu, .httpHeader]

/-- The options that a new handle may have. -/
def handleOptions : List CURLoption :=
  [.xoauth2Bearer, .httpAuth, .caInfo, .sslOptions]

/-- The options that every initialization sets. -/
def connectionOptions : List CURLoption :=
  [.forbidReuse, .sslVerifyPeer, .sslVerifyHost, .connectTimeout, .timeout, .lowSpeedLimit,
    .lowSpeedTime, .acceptEncoding, .followLocation, .headerFunction, .headerData,
    .writeFunction, .writeData, .proxy, .proxyUsername, .proxyPassword]

def scratch : Set CURLoption :=
  {key | key ∈ scratchOptions}

/-- The options of a client that has just been made. -/
def setUp (selectCURLCertPath : Text) (params : RequestParams) (requestInfo : Nat) : EasyHandle :=
  assign (handleFor selectCURLCertPath params.bearerToken params.caCertFile)
    (configuration params requestInfo)

/-- A client whose next request is made as by a new client with the parameters. -/
structure Ready (selectCURLCertPath : Text) (params : RequestParams)
    (client : HTTPFSCurlClient) : Prop where
  handle : client.curl.isSome = true
  alike : Alike restValue scratch client.options
    (setUp selectCURLCertPath params client.requestInfo)
  token : client.storedBearerToken = params.bearerToken
  certFile : client.storedCertFilePath = params.caCertFile
  state : client.state = params.state

/-- A client that is as good as new once it has been initialized. -/
structure Parked (selectCURLCertPath : Text) (client : HTTPFSCurlClient) : Prop where
  handle : client.curl.isSome = true
  alike : Alike restValue (scratch ∪ {key | key ∈ connectionOptions}) client.options
    (handleFor selectCURLCertPath client.storedBearerToken client.storedCertFilePath)

variable {selectCURLCertPath : Text} {params : RequestParams} {client : HTTPFSCurlClient}

/-! ## What initializing sets -/

theorem mem_proxy {key : CURLoption} (member : key ∈ (configureProxy params).map Prod.fst) :
    key ∈ [CURLoption.proxy, .proxyUsername, .proxyPassword] := by
  unfold configureProxy at member
  simp only [List.map_append, List.mem_append] at member
  rcases member with reset | chosen
  · exact reset
  · split at chosen
    · contradiction
    · rw [List.map_cons, List.mem_cons] at chosen
      rcases chosen with rfl | credentials
      · exact List.mem_cons_self
      · split at credentials
        · contradiction
        · exact List.mem_cons_of_mem _ credentials

theorem mem_configuration (params : RequestParams) (requestInfo : Nat) (key : CURLoption) :
    key ∈ (configuration params requestInfo).map Prod.fst ↔ key ∈ connectionOptions := by
  have first : (configureConnection params).map Prod.fst = connectionOptions.take 3 := rfl
  have second : (configureTimeoutsAndCallbacks params requestInfo).map Prod.fst =
      (connectionOptions.drop 3).take 10 := rfl
  rw [configuration, List.map_append, List.map_append, List.mem_append, List.mem_append, first,
    second]
  constructor
  · rintro ((member | member) | member)
    · exact List.mem_of_mem_take member
    · exact List.mem_of_mem_drop (List.mem_of_mem_take member)
    · have proxied : key ∈ connectionOptions.drop 13 := mem_proxy member
      exact List.mem_of_mem_drop proxied
  · intro member
    have parts : connectionOptions = connectionOptions.take 3 ++
        (connectionOptions.drop 3).take 10 ++ connectionOptions.drop 13 := rfl
    rw [parts, List.mem_append, List.mem_append] at member
    refine member.imp_right fun last => ?_
    rw [configureProxy, List.map_append, List.mem_append]
    exact Or.inl last

/-- An option that belongs to requests is not set on a new client. -/
theorem setUp_eq_none (requestInfo : Nat) {key : CURLoption} (other : key ∉ connectionOptions)
    (plain : key ∉ handleOptions) :
    setUp selectCURLCertPath params requestInfo key = none := by
  rw [setUp, assign_of_notMem (mt (mem_configuration _ _ _).mp other), handleFor, newHandle,
    assign_of_notMem]
  simp only [handleOptions, List.mem_cons, List.not_mem_nil, not_or] at plain
  simp only [List.map_append, List.mem_append, not_or]
  refine ⟨⟨?_, ?_⟩, ?_⟩
  · split <;> simp [plain]
  · split <;> simp [plain]
  · simp [plain]

/-- The proxy is set behind the callbacks. -/
theorem setUp_callbacks (selectCURLCertPath : Text) (params : RequestParams)
    (requestInfo : Nat) :
    setUp selectCURLCertPath params requestInfo .headerFunction =
        some (.function .requestHeader) ∧
      setUp selectCURLCertPath params requestInfo .headerData =
        some (.object (.headerCollection requestInfo)) ∧
      setUp selectCURLCertPath params requestInfo .writeFunction =
        some (.function .requestWrite) ∧
      setUp selectCURLCertPath params requestInfo .writeData =
        some (.object (.body requestInfo)) := by
  have behind {key : CURLoption}
      (other : key ∉ [CURLoption.proxy, .proxyUsername, .proxyPassword]) :
      setUp selectCURLCertPath params requestInfo key =
        assign (assign (handleFor selectCURLCertPath params.bearerToken params.caCertFile)
          (configureConnection params)) (configureTimeoutsAndCallbacks params requestInfo) key := by
    rw [setUp, configuration, assign_append, assign_append,
      assign_of_notMem (mt mem_proxy other)]
  refine ⟨?_, ?_, ?_, ?_⟩
  · rw [behind (by decide)]
    rfl
  · rw [behind (by decide)]
    rfl
  · rw [behind (by decide)]
    rfl
  · rw [behind (by decide)]
    rfl

/-! ## What a request leaves behind -/

/-- A transfer sets every scratch option, and leaves all others as it found them. -/
structure Transfer.Clean (transfer : Transfer) (base : EasyHandle) : Prop where
  covers : ∀ key ∈ scratch, key ∈ transfer.before.map Prod.fst
  restores : Alike restValue scratch (assign base (transfer.before ++ transfer.after)) base

/-- Only the options of its own have to be put back by a transfer. -/
theorem Transfer.clean_of_own {transfer : Transfer} {base : EasyHandle} (own : List CURLoption)
    (covers : ∀ key ∈ scratchOptions, key ∈ transfer.before.map Prod.fst)
    (touched : ∀ key ∈ (transfer.before ++ transfer.after).map Prod.fst,
      key ∈ scratchOptions ++ own)
    (back : ∀ key ∈ own,
      effective restValue (assign base (transfer.before ++ transfer.after)) key =
        effective restValue base key) : transfer.Clean base where
  covers := covers
  restores := by
    apply Alike.of_touched
    intro key member fixed
    rcases List.mem_append.mp (touched key member) with free | mine
    · exact absurd free fixed
    · exact back key mine

theorem effective_of_back {base : EasyHandle} {changes : List (CURLoption × CURLvalue)}
    {key : CURLoption} (back : assign base changes key = restValue key)
    (unset : base key = none) :
    effective restValue (assign base changes) key = effective restValue base key := by
  rw [effective_eq_none (Or.inr back), effective_eq_none (Or.inl unset)]

section Requests

variable (client) (request : BaseRequest)

theorem get_clean :
    (client.get request).Clean (setUp selectCURLCertPath params client.requestInfo) := by
  apply Transfer.clean_of_own
    [.nobody, .httpGet, .headerFunction, .headerData, .writeFunction, .writeData]
  · change ∀ key ∈ scratchOptions, key ∈ [CURLoption.nobody, .httpGet, .url, .curlu, .httpHeader,
      .headerFunction, .headerData, .writeFunction, .writeData]
    decide
  · change ∀ key ∈ [CURLoption.nobody, .httpGet, .url, .curlu, .httpHeader, .headerFunction,
      .headerData, .writeFunction, .writeData, .headerFunction, .headerData, .writeFunction,
      .writeData], _
    decide
  · obtain ⟨headerFunction, headerData, writeFunction, writeData⟩ :=
      setUp_callbacks selectCURLCertPath params client.requestInfo
    intro key member
    simp only [List.mem_cons, List.not_mem_nil, or_false] at member
    rcases member with rfl | rfl | rfl | rfl | rfl | rfl
    · exact effective_of_back rfl (setUp_eq_none _ (by decide) (by decide))
    · exact effective_of_back rfl (setUp_eq_none _ (by decide) (by decide))
    · exact effective_congr restValue headerFunction.symm
    · exact effective_congr restValue headerData.symm
    · exact effective_congr restValue writeFunction.symm
    · exact effective_congr restValue writeData.symm

theorem put_clean :
    (client.put request).Clean (setUp selectCURLCertPath params client.requestInfo) := by
  apply Transfer.clean_of_own [.customRequest, .postFields, .postFieldSizeLarge]
  · change ∀ key ∈ scratchOptions, key ∈ [CURLoption.url, .curlu, .customRequest, .postFields,
      .postFieldSizeLarge, .httpHeader]
    decide
  · change ∀ key ∈ [CURLoption.url, .curlu, .customRequest, .postFields, .postFieldSizeLarge,
      .httpHeader, .customRequest, .postFields, .postFieldSizeLarge], _
    decide
  · intro key member
    simp only [List.mem_cons, List.not_mem_nil, or_false] at member
    rcases member with rfl | rfl | rfl
    · exact effective_of_back rfl (setUp_eq_none _ (by decide) (by decide))
    · exact effective_of_back rfl (setUp_eq_none _ (by decide) (by decide))
    · exact effective_of_back rfl (setUp_eq_none _ (by decide) (by decide))

theorem head_clean :
    (client.head request).Clean (setUp selectCURLCertPath params client.requestInfo) := by
  apply Transfer.clean_of_own [.nobody, .httpGet]
  · change ∀ key ∈ scratchOptions, key ∈ [CURLoption.nobody, .httpGet, .url, .curlu, .httpHeader]
    decide
  · change ∀ key ∈ [CURLoption.nobody, .httpGet, .url, .curlu, .httpHeader, .nobody, .httpGet], _
    decide
  · intro key member
    simp only [List.mem_cons, List.not_mem_nil, or_false] at member
    rcases member with rfl | rfl
    · exact effective_of_back rfl (setUp_eq_none _ (by decide) (by decide))
    · exact effective_of_back rfl (setUp_eq_none _ (by decide) (by decide))

/-- `Delete` and `Options` set the same options. -/
theorem custom_clean (method : Text) (lines : List Text) :
    Transfer.Clean
      ⟨client.setCurlu request ++ [(.customRequest, .text method), client.setHttpHeader lines],
        [(.customRequest, .null)]⟩
      (setUp selectCURLCertPath params client.requestInfo) := by
  apply Transfer.clean_of_own [.customRequest]
  · change ∀ key ∈ scratchOptions, key ∈ [CURLoption.url, .curlu, .customRequest, .httpHeader]
    decide
  · change ∀ key ∈ [CURLoption.url, .curlu, .customRequest, .httpHeader, .customRequest], _
    decide
  · intro key member
    rw [List.mem_singleton] at member
    subst member
    exact effective_of_back rfl (setUp_eq_none _ (by decide) (by decide))

theorem post_keys : ∃ method, (method = CURLoption.customRequest ∨ method = .post) ∧
    (client.post request).before.map Prod.fst =
      [.url, .curlu, method, .postFields, .postFieldSize, .httpHeader] := by
  cases asGet : request.sendPostAsGetRequest with
  | true =>
      refine ⟨.customRequest, Or.inl rfl, ?_⟩
      simp only [HTTPFSCurlClient.post, asGet]
      rfl
  | false =>
      refine ⟨.post, Or.inr rfl, ?_⟩
      simp only [HTTPFSCurlClient.post, asGet]
      rfl

theorem post_clean :
    (client.post request).Clean (setUp selectCURLCertPath params client.requestInfo) := by
  obtain ⟨method, own, keys⟩ := post_keys client request
  apply Transfer.clean_of_own [.customRequest, .postFields, .postFieldSize, .post]
  · rw [keys]
    rcases own with rfl | rfl <;> decide
  · have behind : (client.post request).after.map Prod.fst =
        [.customRequest, .postFields, .postFieldSize, .post] := rfl
    rw [List.map_append, keys, behind]
    rcases own with rfl | rfl <;> decide
  · intro key member
    simp only [List.mem_cons, List.not_mem_nil, or_false] at member
    rcases member with rfl | rfl | rfl | rfl
    · exact effective_of_back rfl (setUp_eq_none _ (by decide) (by decide))
    · exact effective_of_back rfl (setUp_eq_none _ (by decide) (by decide))
    · exact effective_of_back rfl (setUp_eq_none _ (by decide) (by decide))
    · exact effective_of_back rfl (setUp_eq_none _ (by decide) (by decide))

theorem transfer_clean :
    (client.transfer request).Clean (setUp selectCURLCertPath params client.requestInfo) := by
  unfold HTTPFSCurlClient.transfer
  cases request.type with
  | get => exact get_clean client request
  | put => exact put_clean client request
  | head => exact head_clean client request
  | delete => exact custom_clean client request _ _
  | options => exact custom_clean client request _ _
  | post => exact post_clean client request

end Requests

/-! ## The life of a client -/

/-- A request on a ready client finds the options a new client would set. -/
theorem Ready.executes (ready : Ready selectCURLCertPath params client) (request : BaseRequest) :
    effective restValue (client.executes request) =
      effective restValue (assign (setUp selectCURLCertPath params client.requestInfo)
        (client.transfer request).before) := by
  have clean : (client.transfer request).Clean
      (setUp selectCURLCertPath params client.requestInfo) := transfer_clean client request
  exact ready.alike.effective_eq clean.covers

/-- A request leaves a ready client ready. -/
theorem Ready.behind (ready : Ready selectCURLCertPath params client) (request : BaseRequest) :
    Ready selectCURLCertPath params (client.behind request) where
  handle := rfl
  alike := by
    have kept := ready.alike.restore (transfer_clean client request).restores
    rw [assign_append] at kept
    exact kept
  token := ready.token
  certFile := ready.certFile
  state := ready.state

theorem Ready.parked (ready : Ready selectCURLCertPath params client) :
    Parked selectCURLCertPath client where
  handle := ready.handle
  alike := by
    have fresh : Alike restValue (scratch ∪ {key | key ∈ connectionOptions})
        (setUp selectCURLCertPath params client.requestInfo)
        (handleFor selectCURLCertPath params.bearerToken params.caCertFile) := by
      apply Alike.of_touched
      intro key touched fixed
      exact absurd (Or.inr ((mem_configuration _ _ _).mp touched)) fixed
    rw [ready.token, ready.certFile]
    exact (ready.alike.mono Set.subset_union_left).trans fresh

theorem Parked.cleanup (parked : Parked selectCURLCertPath client) :
    Parked selectCURLCertPath client.cleanup :=
  { parked with }

/-- A handle is kept if it was made with the token and the certificate of the
parameters, and made with them otherwise. -/
theorem Parked.initializeHandle (parked : Parked selectCURLCertPath client)
    (params : RequestParams) :
    (client.initializeHandle selectCURLCertPath params).storedBearerToken = params.bearerToken ∧
      (client.initializeHandle selectCURLCertPath params).storedCertFilePath =
        params.caCertFile ∧
      Parked selectCURLCertPath (client.initializeHandle selectCURLCertPath params) := by
  unfold HTTPFSCurlClient.initializeHandle
  split
  · rename_i kept
    exact ⟨kept.2.1, kept.2.2, parked⟩
  · exact ⟨rfl, rfl, rfl, Alike.refl _ _ _⟩

/-- Whatever the client was used for, once initialized it is ready. -/
theorem Parked.configure (parked : Parked selectCURLCertPath client) (params : RequestParams) :
    Ready selectCURLCertPath params (client.configure selectCURLCertPath params) := by
  have counted : Parked selectCURLCertPath { client with state := params.state } := { parked with }
  obtain ⟨token, certFile, handled⟩ := counted.initializeHandle params
  refine ⟨rfl, ?_, token, certFile, ?_⟩
  · have alike := handled.alike
    rw [token, certFile] at alike
    apply (alike.assign (configuration params _)).mono
    rintro key ⟨free | connection, untouched⟩
    · exact free
    · exact absurd ((mem_configuration _ _ _).mpr connection) untouched
  · change (HTTPFSCurlClient.initializeHandle selectCURLCertPath
      { client with state := params.state } params).state = params.state
    unfold HTTPFSCurlClient.initializeHandle
    split <;> rfl

theorem ready_new (selectCURLCertPath : Text) (number : Nat) (params : RequestParams)
    (protoHostPort : Text) :
    Ready selectCURLCertPath params
      (HTTPFSCurlClient.new selectCURLCertPath number params protoHostPort) where
  handle := rfl
  alike := Alike.refl _ _ _
  token := rfl
  certFile := rfl
  state := rfl

end Httpfs.Http.ConnectionCache
