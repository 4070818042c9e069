import Httpfs.S3.Delete.RemoveFiles
import Mathlib.Data.List.Perm.Basic

/-!
# What a bulk delete sends

Every path ends up in one chunk of one batch, and the request of that chunk
goes where the path itself would have gone.
-/

namespace Httpfs.S3.Delete

open Http Text Xml
open scoped List

/-! ## Resolved paths -/

section Resolved

variable {opener : Opener} {path other : Text} {resolved resolvedOther : ResolvedPath}

/-- The parts of a resolved path. -/
theorem resolvePath_eq_ok (resolves : resolvePath opener path = .ok resolved) :
    ∃ parsedUrl authParams,
      resolve opener.decode path (readFrom opener.settings? path) = .ok (parsedUrl, authParams) ∧
      resolved.path = path ∧ resolved.key = parsedUrl.key ∧
      resolved.urlInfo = urlInfoOf parsedUrl authParams ∧
      resolved.params = .ofParams (opener.initializeParameters path) ∧
      resolved.batchKey = createDeleteBatchKey opener resolved.urlInfo resolved.params path := by
  rcases bind_eq_ok_iff.mp resolves with ⟨⟨parsedUrl, authParams⟩, found, ⟨⟩⟩
  exact ⟨parsedUrl, authParams, found, rfl, rfl, rfl, rfl, rfl⟩

/-- Paths with the same batch key go to the same place with the same parameters. -/
theorem sameBatch (secrets : opener.NamesSecrets) (resolves : resolvePath opener path = .ok resolved)
    (resolvesOther : resolvePath opener other = .ok resolvedOther)
    (sameKey : resolved.batchKey = resolvedOther.batchKey) :
    resolved.urlInfo = resolvedOther.urlInfo ∧
      resolved.params.same resolvedOther.params = true := by
  rcases resolvePath_eq_ok resolves with
    ⟨parsedUrl, authParams, found, -, -, urlInfo, -, batchKey⟩
  rcases resolvePath_eq_ok resolvesOther with
    ⟨otherUrl, otherParams, foundOther, -, -, otherInfo, -, otherKey⟩
  rw [batchKey, otherKey] at sameKey
  rcases createDeleteBatchKey_inj secrets sameKey with
    ⟨urlPrefix, httpProto, host, bucketPath, auth, params⟩
  refine ⟨?_, params⟩
  rw [urlInfo, otherInfo] at urlPrefix httpProto host bucketPath auth ⊢
  -- The key leaves out the alias flag, but the prefix tells it.
  have aliases : authParams.schemeIsAlias = otherParams.schemeIsAlias := by
    rw [Bool.eq_iff_iff, resolve_schemeIsAlias found, resolve_schemeIsAlias foundOther]
    dsimp only [urlInfoOf] at urlPrefix
    rw [urlPrefix]
  have sameAuth : authParams = otherParams := by
    simp only [sameAuthParams, urlInfoOf, S3AuthParams.mk.injEq] at auth
    cases authParams
    cases otherParams
    simp only [S3AuthParams.mk.injEq]
    tauto
  dsimp only [urlInfoOf] at urlPrefix httpProto host bucketPath ⊢
  rw [urlPrefix, httpProto, host, bucketPath, sameAuth]

end Resolved

/-! ## Batches -/

/-- A batch holds the resolved paths of a group, in order. -/
structure Gathers (entry : Text × S3DeleteBatch) (group : List ResolvedPath) : Prop where
  keys : entry.2.keys = group.map ResolvedPath.key
  paths : entry.2.secretLookupPaths = group.map ResolvedPath.path
  batchKey : ∀ resolved ∈ group, resolved.batchKey = entry.1
  urlInfo : group.head?.map ResolvedPath.urlInfo = some entry.2.urlInfo

theorem addPath_gathers (resolved : ResolvedPath) {batches : Batches}
    {groups : List (List ResolvedPath)} (gathers : List.Forall₂ Gathers batches groups) :
    ∃ extended, List.Forall₂ Gathers (addPath resolved batches) extended ∧
      extended.flatten.Perm (resolved :: groups.flatten) := by
  induction gathers with
  | nil =>
      refine ⟨[[resolved]], .cons ⟨rfl, rfl, ?_, rfl⟩ .nil, .refl _⟩
      intro other member
      rw [List.mem_singleton.mp member]
  | @cons entry group batches groups holds rest ih =>
      rcases entry with ⟨batchKey, batch⟩
      rw [addPath]
      split
      · rename_i same
        have keys : batch.keys = group.map ResolvedPath.key := holds.keys
        have lookupPaths : batch.secretLookupPaths = group.map ResolvedPath.path := holds.paths
        refine ⟨(group ++ [resolved]) :: groups, .cons ⟨?_, ?_, ?_, ?_⟩ rest, ?_⟩
        · simp [keys]
        · simp [lookupPaths]
        · intro other member
          rcases List.mem_append.mp member with old | new
          · exact holds.batchKey other old
          · rw [List.mem_singleton.mp new]
            exact same.symm
        · have urlInfo := holds.urlInfo
          cases group with
          | nil => contradiction
          | cons first group => exact urlInfo
        · rw [List.flatten_cons, List.flatten_cons, List.append_assoc]
          exact List.perm_middle
      · rcases ih with ⟨extended, gathered, permuted⟩
        refine ⟨group :: extended, .cons holds gathered, ?_⟩
        rw [List.flatten_cons, List.flatten_cons]
        exact (permuted.append_left group).trans List.perm_middle

theorem collectBatches_gathers {opener : Opener} {paths : List Text} {batches collected : Batches}
    {groups : List (List ResolvedPath)} (gathers : List.Forall₂ Gathers batches groups)
    (collects : collectBatches opener paths batches = .ok collected) :
    ∃ resolved all, List.Forall₂ (fun path found => resolvePath opener path = .ok found)
        paths resolved ∧
      List.Forall₂ Gathers collected all ∧ all.flatten.Perm (groups.flatten ++ resolved) := by
  induction paths generalizing batches groups with
  | nil =>
      cases collects
      exact ⟨[], groups, .nil, gathers, by rw [List.append_nil]⟩
  | cons path paths ih =>
      rcases bind_eq_ok_iff.mp collects with ⟨found, resolves, continues⟩
      rcases addPath_gathers found gathers with ⟨extended, gathered, permuted⟩
      rcases ih gathered continues with ⟨resolved, all, every, collectedAll, rest⟩
      refine ⟨found :: resolved, all, .cons resolves every, collectedAll, ?_⟩
      calc all.flatten
        _ ~ extended.flatten ++ resolved := rest
        _ ~ (found :: groups.flatten) ++ resolved := permuted.append_right resolved
        _ ~ groups.flatten ++ found :: resolved := List.perm_middle.symm

/-! ## Chunks -/

/-- The request names the keys of a chunk of a group, in the session of the
group and under the path of the chunk. -/
structure SendsChunk (session : S3RequestSnapshot) (group : List ResolvedPath)
    (request : BulkDelete) (chunk : List ResolvedPath) : Prop where
  members : chunk ⊆ group
  nonempty : 1 ≤ chunk.length
  atMost : chunk.length ≤ maxKeysPerRequest
  session : request.session = session
  lookupUrl : chunk.head?.map ResolvedPath.path = some request.secretLookupUrl
  body : request.body = writeDeleteObjectsRequest (chunk.map ResolvedPath.key) 0 chunk.length

/-- The session of a batch. -/
def batchSession (opener : Opener) (batch : S3DeleteBatch) : S3RequestSnapshot :=
  createSession opener (batch.secretLookupPaths.headD []) batch.urlInfo.authParams

theorem writeDeleteObjectsRequest_slice (keys : List Text) (beginIndex endIndex : Nat) :
    writeDeleteObjectsRequest keys beginIndex endIndex =
      writeDeleteObjectsRequest ((keys.drop beginIndex).take (endIndex - beginIndex)) 0
        (endIndex - beginIndex) := by
  rw [writeDeleteObjectsRequest, writeDeleteObjectsRequest, List.drop_zero, Nat.sub_zero,
    List.take_take, Nat.min_self]

/-- The request of one round names the next thousand keys. -/
theorem sendsChunk {batch : S3DeleteBatch} {group : List ResolvedPath}
    {session : S3RequestSnapshot} {batchStart : Nat}
    (keys : batch.keys = group.map ResolvedPath.key)
    (lookupPaths : batch.secretLookupPaths = group.map ResolvedPath.path)
    (more : batchStart < batch.keys.length) :
    SendsChunk session group
      { session
        secretLookupUrl := batch.secretLookupPaths.getD batchStart []
        body := writeDeleteObjectsRequest batch.keys batchStart
          (min (batchStart + maxKeysPerRequest) batch.keys.length) }
      ((group.drop batchStart).take maxKeysPerRequest) := by
  have inside : batchStart < group.length := by simpa [keys] using more
  have length : ((group.drop batchStart).take maxKeysPerRequest).length =
      min (batchStart + maxKeysPerRequest) batch.keys.length - batchStart := by
    rw [keys, List.length_take, List.length_drop, List.length_map]
    omega
  constructor
  · exact fun resolved member => List.mem_of_mem_drop (List.mem_of_mem_take member)
  · rw [List.length_take, List.length_drop, maxKeysPerRequest]
    omega
  · exact List.length_take_le _ _
  · rfl
  · have first : ((group.drop batchStart).take maxKeysPerRequest).head? = some group[batchStart] := by
      rw [List.head?_take, if_neg (by decide), List.head?_drop, List.getElem?_eq_getElem inside]
    rw [first, lookupPaths, List.getD_eq_getElem?_getD, List.getElem?_map,
      List.getElem?_eq_getElem inside]
    rfl
  · have chunkKeys : (batch.keys.drop batchStart).take
        (min (batchStart + maxKeysPerRequest) batch.keys.length - batchStart) =
          ((group.drop batchStart).take maxKeysPerRequest).map ResolvedPath.key := by
      rw [← length, keys, ← List.map_drop, ← List.map_take]
      congr 1
      rw [List.take_eq_take_iff, List.length_take, List.length_drop]
      omega
    rw [length, ← chunkKeys]
    exact writeDeleteObjectsRequest_slice _ _ _

section Sending

variable {World : Type} {utf8Proc : Utf8Proc} {getError : BulkDelete → HTTPResponse → ErrorData}
  {bulkDelete : BulkDelete → World → Except ErrorData (HTTPResponse × Text) × World}

theorem deleteChunks_sends {entry : Text × S3DeleteBatch} {group : List ResolvedPath}
    (gathers : Gathers entry group) {session : S3RequestSnapshot} (batchStart : Nat)
    (world : World)
    (returns : (deleteChunks utf8Proc getError bulkDelete session entry.2 batchStart world).outcome =
      .ok ()) :
    ∃ chunks, chunks.flatten = group.drop batchStart ∧
      List.Forall₂ (SendsChunk session group)
        (deleteChunks utf8Proc getError bulkDelete session entry.2 batchStart world).sent
        chunks := by
  rcases entry with ⟨batchKey, batch⟩
  have keys : batch.keys = group.map ResolvedPath.key := gathers.keys
  have lookupPaths : batch.secretLookupPaths = group.map ResolvedPath.path := gathers.paths
  dsimp only at returns ⊢
  fun_induction deleteChunks utf8Proc getError bulkDelete session batch batchStart world with
  | case1 | case2 => contradiction
  | case3 batchStart world more batchEnd request response result later answered passes rest ih =>
      rcases ih returns with ⟨chunks, covers, sends⟩
      refine ⟨(group.drop batchStart).take maxKeysPerRequest :: chunks, ?_,
        .cons (sendsChunk keys lookupPaths more) sends⟩
      rw [List.flatten_cons, covers, ← List.drop_drop, List.take_append_drop]
  | case4 batchStart world done =>
      refine ⟨[], ?_, .nil⟩
      rw [keys, List.length_map, not_lt] at done
      rw [List.drop_eq_nil_of_le done]
      rfl

/-- Every batch is sent, chunk by chunk, through a session of its own. -/
theorem deleteBatches_sends {opener : Opener} {batches : Batches}
    {groups : List (List ResolvedPath)} (gathers : List.Forall₂ Gathers batches groups)
    (world : World)
    (returns : (deleteBatches utf8Proc getError bulkDelete opener batches world).outcome = .ok ()) :
    ∃ chunks, chunks.flatten = groups.flatten ∧
      List.Forall₂ (fun request chunk => ∃ entry group, Gathers entry group ∧ group ∈ groups ∧
          SendsChunk (batchSession opener entry.2) group request chunk)
        (deleteBatches utf8Proc getError bulkDelete opener batches world).sent chunks := by
  induction gathers generalizing world with
  | nil => exact ⟨[], rfl, .nil⟩
  | @cons entry group batches groups holds rest ih =>
      rcases entry with ⟨batchKey, batch⟩
      rw [deleteBatches] at returns ⊢
      dsimp only at returns ⊢
      split at returns
      · rename_i error failed
        rw [failed] at returns
        contradiction
      · rename_i sentAll
        rcases deleteChunks_sends holds 0 world sentAll with ⟨chunks, covers, sends⟩
        rcases ih _ returns with ⟨others, coversRest, sendsRest⟩
        refine ⟨chunks ++ others, ?_, List.rel_append ?_ ?_⟩
        · rw [List.flatten_append, covers, coversRest, List.drop_zero, List.flatten_cons]
        · apply sends.imp
          intro request chunk sendsChunk
          exact ⟨_, group, holds, List.mem_cons_self, sendsChunk⟩
        · apply sendsRest.imp
          rintro request chunk ⟨entry, other, gathered, member, sendsChunk⟩
          exact ⟨entry, other, gathered, List.mem_cons_of_mem _ member, sendsChunk⟩

end Sending

/-! ## Where a request goes -/

/-- The place a request starts from, as its first attempt reads it. -/
def BulkDelete.urlInfo (request : BulkDelete) : Except ErrorData S3DeleteBatchUrlInfo := do
  let parsedUrl ← parse request.secretLookupUrl request.session.authParams
  pure (urlInfoOf parsedUrl request.session.authParams)

/-- A request deletes the keys of some paths in the place all of them resolve to. -/
structure Deletes (request : BulkDelete) (chunk : List ResolvedPath) : Prop where
  nonempty : 1 ≤ chunk.length
  atMost : chunk.length ≤ 1000
  body : request.body = writeDeleteObjectsRequest (chunk.map ResolvedPath.key) 0 chunk.length
  urlInfo : ∀ resolved ∈ chunk, request.urlInfo = .ok resolved.urlInfo
  params : ∀ resolved ∈ chunk,
    (S3RefreshableHTTPParams.ofParams request.session.params).same resolved.params = true

theorem SendsChunk.deletes {opener : Opener} (secrets : opener.NamesSecrets)
    {entry : Text × S3DeleteBatch} {group chunk : List ResolvedPath} {request : BulkDelete}
    (gathers : Gathers entry group)
    (resolves : ∀ resolved ∈ group, resolvePath opener resolved.path = .ok resolved)
    (sends : SendsChunk (batchSession opener entry.2) group request chunk) :
    Deletes request chunk := by
  rcases Option.map_eq_some_iff.mp gathers.urlInfo with ⟨first, isHead, firstInfo⟩
  rcases Option.map_eq_some_iff.mp sends.lookupUrl with ⟨start, isStart, startPath⟩
  have firstMember : first ∈ group := List.mem_of_mem_head? isHead
  have startMember : start ∈ group := sends.members (List.mem_of_mem_head? isStart)
  have alike {resolved : ResolvedPath} (member : resolved ∈ group) :=
    sameBatch secrets (resolves first firstMember) (resolves resolved member)
      ((gathers.batchKey first firstMember).trans (gathers.batchKey resolved member).symm)
  have headPath : entry.2.secretLookupPaths.headD [] = first.path := by
    rw [gathers.paths, List.headD_eq_head?_getD, List.head?_map, isHead]
    rfl
  refine ⟨sends.nonempty, sends.atMost, sends.body, ?_, ?_⟩
  · intro resolved member
    rcases resolvePath_eq_ok (resolves start startMember) with
      ⟨parsedUrl, authParams, found, -, -, urlInfo, -, -⟩
    rcases resolve_eq_ok_iff.mp found with ⟨-, -, -, -, -, parses⟩
    have sameInfo : resolved.urlInfo = start.urlInfo :=
      (alike (sends.members member)).1.symm.trans (alike startMember).1
    have sameAuth : request.session.authParams = authParams := by
      rw [sends.session, batchSession, createSession, ← firstInfo, (alike startMember).1, urlInfo]
      rfl
    rw [BulkDelete.urlInfo, ← startPath, sameAuth, parses, sameInfo, urlInfo]
    rfl
  · intro resolved member
    rcases resolvePath_eq_ok (resolves first firstMember) with
      ⟨parsedUrl, authParams, -, -, -, -, params, -⟩
    have sessionParams : S3RefreshableHTTPParams.ofParams request.session.params = first.params := by
      rw [sends.session, batchSession, createSession, headPath, params]
    rw [sessionParams]
    exact (alike (sends.members member)).2

/-! ## All paths -/

section All

variable {World : Type} {utf8Proc : Utf8Proc} {getError : BulkDelete → HTTPResponse → ErrorData}
  {bulkDelete : BulkDelete → World → Except ErrorData (HTTPResponse × Text) × World}
  {visits : Batches → Batches} {opener : Opener}

/-- The paths of a list with what each resolves to. -/
def ResolvesAll (opener : Opener) (paths : List Text) (resolved : List ResolvedPath) : Prop :=
  List.Forall₂ (fun path found => resolvePath opener path = .ok found) paths resolved

theorem ResolvesAll.resolves {paths : List Text} {resolved : List ResolvedPath}
    (all : ResolvesAll opener paths resolved) :
    ∀ found ∈ resolved, resolvePath opener found.path = .ok found := by
  induction all with
  | nil =>
      rintro found ⟨⟩
  | cons head rest ih =>
      intro found member
      rcases List.mem_cons.mp member with rfl | later
      · rcases resolvePath_eq_ok head with ⟨-, -, -, path, -⟩
        rw [path]
        exact head
      · exact ih found later

/-- The chunks of a bulk delete that returns hold what every path resolves to. -/
theorem removeFiles_sends (permutes : ∀ batches, (visits batches).Perm batches)
    {paths : List Text} {world : World}
    (returns : (removeFiles utf8Proc getError bulkDelete visits opener paths world).outcome =
      .ok ()) :
    ∃ resolved chunks, ResolvesAll opener paths resolved ∧ chunks.flatten.Perm resolved ∧
      List.Forall₂ (fun request chunk => ∃ entry group, Gathers entry group ∧
          group ⊆ resolved ∧ SendsChunk (batchSession opener entry.2) group request chunk)
        (removeFiles utf8Proc getError bulkDelete visits opener paths world).sent chunks := by
  rw [removeFiles] at returns ⊢
  split at returns
  · rename_i empty
    rw [if_pos empty, List.isEmpty_iff.mp empty]
    exact ⟨[], [], .nil, .refl _, .nil⟩
  · rename_i nonempty
    rw [if_neg nonempty]
    split at returns
    · contradiction
    · rename_i batches collects
      rcases collectBatches_gathers .nil collects with ⟨resolved, groups, all, gathers, permuted⟩
      rcases List.perm_comp_forall₂ (permutes batches) gathers with ⟨visited, gathered, reordered⟩
      rcases deleteBatches_sends gathered world returns with ⟨chunks, covers, sends⟩
      have covered : visited.flatten.Perm resolved := reordered.flatten.trans permuted
      refine ⟨resolved, chunks, all, covers ▸ covered, ?_⟩
      apply sends.imp
      rintro request chunk ⟨entry, group, holds, member, sendsChunk⟩
      refine ⟨entry, group, holds, ?_, sendsChunk⟩
      intro found inGroup
      exact covered.mem_iff.mp (List.mem_flatten_of_mem member inGroup)

/-- A bulk delete that returns has sent every path exactly once, in a request of
one to a thousand keys that starts where the path itself resolves to; a body
names one list of keys, and paths that share a batch key resolve alike. -/
theorem removeFiles_deletes (secrets : opener.NamesSecrets)
    (permutes : ∀ batches, (visits batches).Perm batches) :
    (∀ path other resolved resolvedOther, resolvePath opener path = .ok resolved →
        resolvePath opener other = .ok resolvedOther →
        resolved.batchKey = resolvedOther.batchKey →
        resolved.urlInfo = resolvedOther.urlInfo ∧
          resolved.params.same resolvedOther.params = true) ∧
      (∀ keys others, writeDeleteObjectsRequest keys 0 keys.length =
        writeDeleteObjectsRequest others 0 others.length → keys = others) ∧
      ∀ (paths : List Text) (world : World),
        (removeFiles utf8Proc getError bulkDelete visits opener paths world).outcome = .ok () →
        ∃ resolved chunks, ResolvesAll opener paths resolved ∧ chunks.flatten.Perm resolved ∧
          List.Forall₂ Deletes
            (removeFiles utf8Proc getError bulkDelete visits opener paths world).sent chunks := by
  refine ⟨fun _ _ _ _ => sameBatch secrets, fun _ _ => writeDeleteObjectsRequest_inj, ?_⟩
  intro paths world returns
  rcases removeFiles_sends permutes returns with ⟨resolved, chunks, all, covers, sends⟩
  refine ⟨resolved, chunks, all, covers, ?_⟩
  apply sends.imp
  rintro request chunk ⟨entry, group, holds, within, sendsChunk⟩
  apply sendsChunk.deletes secrets holds
  intro found inGroup
  exact ResolvesAll.resolves all found (within inGroup)

/-- Every request is answered without an error. -/
def Accepts (utf8Proc : Utf8Proc) (getError : BulkDelete → HTTPResponse → ErrorData)
    (bulkDelete : BulkDelete → World → Except ErrorData (HTTPResponse × Text) × World) : Prop :=
  ∀ request world, ∃ response result next,
    bulkDelete request world = (.ok (response, result), next) ∧
      bulkDeleteError utf8Proc getError request response result = none

theorem deleteChunks_returns (accepts : Accepts utf8Proc getError bulkDelete)
    (session : S3RequestSnapshot) (batch : S3DeleteBatch) (batchStart : Nat) (world : World) :
    (deleteChunks utf8Proc getError bulkDelete session batch batchStart world).outcome = .ok () := by
  fun_induction deleteChunks utf8Proc getError bulkDelete session batch batchStart world with
  | case1 batchStart world more batchEnd request error later failed =>
      rcases accepts request world with ⟨response, result, next, answered, -⟩
      rw [failed] at answered
      cases answered
  | case2 batchStart world more batchEnd request response result later answered error failed =>
      rcases accepts request world with ⟨accepted, body, next, same, passes⟩
      rw [answered] at same
      cases same
      rw [failed] at passes
      contradiction
  | case3 batchStart world more batchEnd request response result later answered passes rest ih =>
      exact ih
  | case4 => rfl

/-- A bulk delete of paths that resolve returns if its requests are accepted. -/
theorem removeFiles_returns (accepts : Accepts utf8Proc getError bulkDelete) {paths : List Text}
    {batches : Batches} (collects : collectBatches opener paths [] = .ok batches) (world : World) :
    (removeFiles utf8Proc getError bulkDelete visits opener paths world).outcome = .ok () := by
  rw [removeFiles, collects]
  split
  · rfl
  · dsimp only
    induction visits batches generalizing world with
    | nil => rfl
    | cons entry batches ih =>
        rcases entry with ⟨batchKey, batch⟩
        rw [deleteBatches]
        dsimp only
        rw [deleteChunks_returns accepts]
        exact ih _

end All

private def plainOpener : Opener where
  settings? := none
  decode := id
  initializeParameters _ := {}
  lookupSecret? := none
  credentialRefreshEnabled := false
  hasRefreshableS3Secret _ := false

private theorem plainOpener_namesSecrets : plainOpener.NamesSecrets := by
  constructor <;> rintro lookup ⟨⟩

/-- A service that accepts every delete. -/
def acceptAll (_ : BulkDelete) (world : Unit) :
    Except ErrorData (HTTPResponse × Text) × Unit :=
  (.ok (⟨200, "", [], ""⟩, "<DeleteResult/>".toList), world)

theorem acceptAll_accepts :
    Accepts .standard (fun _ _ => .io "") acceptAll := by
  intro request world
  refine ⟨_, _, _, rfl, ?_⟩
  have empty : tryParseDeleteObjects .standard "<DeleteResult/>".toList = some {} := by
    rfl
  rw [bulkDeleteError, empty]
  rfl

theorem removeFiles_deletes_twoBuckets :
    ∃ resolved chunks,
      ResolvesAll plainOpener ["s3://b/k".toList, "s3://c/k".toList] resolved ∧
        chunks.flatten.Perm resolved ∧
        List.Forall₂ Deletes (removeFiles .standard (fun _ _ => .io "") acceptAll id plainOpener
          ["s3://b/k".toList, "s3://c/k".toList] ()).sent chunks := by
  have collected : ∃ batches,
      collectBatches plainOpener ["s3://b/k".toList, "s3://c/k".toList] [] = .ok batches :=
    ⟨_, rfl⟩
  rcases collected with ⟨batches, collects⟩
  exact (removeFiles_deletes plainOpener_namesSecrets fun _ => .refl _).2.2 _ ()
    (removeFiles_returns acceptAll_accepts collects ())

end Httpfs.S3.Delete
