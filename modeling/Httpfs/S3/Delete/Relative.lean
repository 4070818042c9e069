import Httpfs.S3.Delete.DirectoryWalk
import Mathlib.Algebra.GroupWithZero.Nat
import Mathlib.Algebra.Order.BigOperators.Group.List
import Mathlib.Algebra.Order.Group.Nat

/-!
# The names of a directory's files

The walk of a directory reports the URLs of the keys below it, and what a bulk
delete reads in what follows the directory is shorter than the key.  So a
removal that deletes anything deletes something else than what was listed.
-/

namespace Httpfs.S3.Delete

open Http Text Xml Glob

/-! ## What is read in place of a listed key -/

section Reading

variable {opener : Opener}

theorem resolvePath_key_length {path : Text} {resolved : ResolvedPath}
    (resolves : resolvePath opener path = .ok resolved) :
    resolved.key.length < path.length := by
  rcases resolvePath_eq_ok resolves with ⟨parsedUrl, authParams, found, -, key, -⟩
  rcases resolve_eq_ok_iff.mp found with ⟨first, read, -, -, -, parses⟩
  rw [key]
  exact parse_key_length parses

/-- The bytes of all texts. -/
def totalLength (texts : List Text) : Nat :=
  (texts.map List.length).sum

theorem totalLength_perm {texts others : List Text} (permuted : texts.Perm others) :
    totalLength texts = totalLength others :=
  (permuted.map _).sum_eq

theorem totalLength_sublist {texts others : List Text} (within : texts.Sublist others) :
    totalLength texts ≤ totalLength others :=
  (within.map _).sum_le_sum fun _ _ => Nat.zero_le _

/-- The keys that paths resolve to are shorter than the paths. -/
theorem ResolvesAll.totalLength {paths : List Text} {resolved : List ResolvedPath}
    (all : ResolvesAll opener paths resolved) :
    totalLength (resolved.map ResolvedPath.key) + paths.length ≤ totalLength paths := by
  induction all with
  | nil => exact le_rfl
  | cons resolves rest inductionHypothesis =>
      have shorter := resolvePath_key_length resolves
      simp only [Delete.totalLength, List.map_cons, List.sum_cons, List.length_cons]
        at inductionHypothesis ⊢
      omega

theorem collectBatches_ok {paths : List Text} {resolved : List ResolvedPath}
    (all : ResolvesAll opener paths resolved) (batches : Batches) :
    ∃ collected, collectBatches opener paths batches = .ok collected := by
  induction all generalizing batches with
  | nil => exact ⟨batches, rfl⟩
  | cons resolves rest inductionHypothesis =>
      rcases inductionHypothesis (addPath _ batches) with ⟨collected, collects⟩
      exact ⟨collected, bind_eq_ok_iff.mpr ⟨_, resolves, collects⟩⟩

theorem exists_resolvesAll {paths : List Text}
    (resolves : ∀ path ∈ paths, ∃ found, resolvePath opener path = .ok found) :
    ∃ resolved, ResolvesAll opener paths resolved := by
  induction paths with
  | nil => exact ⟨[], .nil⟩
  | cons path paths inductionHypothesis =>
      rcases resolves path List.mem_cons_self with ⟨found, first⟩
      rcases inductionHypothesis fun other member =>
        resolves other (List.mem_cons_of_mem path member) with ⟨resolved, rest⟩
      exact ⟨found :: resolved, .cons first rest⟩

/-- Requests that name the same keys in two ways name them in the same groups. -/
theorem groups_eq {requests : List BulkDelete} {groups others : List (List Text)}
    (bodies : List.Forall₂ (fun request keys =>
      request.body = writeDeleteObjectsRequest keys 0 keys.length) requests groups)
    (otherBodies : List.Forall₂ (fun request keys =>
      request.body = writeDeleteObjectsRequest keys 0 keys.length) requests others) :
    groups = others := by
  induction bodies generalizing others with
  | nil =>
      cases otherBodies
      rfl
  | cons body rest inductionHypothesis =>
      cases otherBodies with
      | cons otherBody otherRest =>
          rw [writeDeleteObjectsRequest_inj (body.symm.trans otherBody),
            inductionHypothesis otherRest]

end Reading

section Removed

variable {joinPath : Text → Text → Text} {environment : Environment} {opener : Opener}
  {content : List Text} {target : ParsedS3Url} {directory : Text}

/-- If all names of a directory that is removed as it should be are read as
URLs, their keys are the keys below the directory. -/
theorem DeletesDirectory.keys_perm
    (deletes : DeletesDirectory joinPath environment opener content target directory)
    {calls : Nat} {files names : List Text}
    (globs : globbedFiles environment opener calls
      (joinPath (trimDirectory directory) "**".toList) = some (.ok files))
    (isNames : files = names.map (trimDirectory directory ++ "/".toList ++ ·))
    (reads : ∀ name ∈ names, ∃ found, resolvePath opener name = .ok found) :
    ∃ resolved, ResolvesAll opener names resolved ∧
      (resolved.map ResolvedPath.key).Perm (keysUnder content target.key) := by
  rcases exists_resolvesAll reads with ⟨found, resolves⟩
  rcases collectBatches_ok resolves [] with ⟨batches, collects⟩
  have returns : (removeFiles .standard (fun _ _ => .io "") acceptAll id opener names
      ()).outcome = .ok () :=
    removeFiles_returns acceptAll_accepts collects ()
  have removes : removeDirectory joinPath environment opener .standard (fun _ _ => .io "")
      acceptAll id calls directory () = some (removeFiles .standard (fun _ _ => .io "")
        acceptAll id opener names ()) := by
    rw [removeDirectory, listFilesExtended, globs]
    cases names with
    | nil =>
        rw [isNames]
        rfl
    | cons name names =>
        dsimp only
        rw [stripBasePath_mapM.mpr isNames, isNames]
        rfl
  rcases deletes Unit .standard _ acceptAll id (fun _ => .refl _) calls () _ removes returns with
    ⟨groups, named, bodies⟩
  rcases removeFiles_sends (fun _ => .refl _) returns with
    ⟨resolved, chunks, all, covers, sends⟩
  refine ⟨resolved, all, ?_⟩
  have sentBodies : List.Forall₂ (fun request keys =>
      request.body = writeDeleteObjectsRequest keys 0 keys.length)
      (removeFiles .standard (fun _ _ => .io "") acceptAll id opener names ()).sent
      (chunks.map fun chunk => chunk.map ResolvedPath.key) := by
    rw [List.forall₂_map_right_iff]
    apply sends.imp
    rintro request chunk ⟨entry, group, -, -, sendsChunk⟩
    rw [List.length_map]
    exact sendsChunk.body
  have sameGroups := groups_eq (bodies.imp fun request keys named => named.1) sentBodies
  rw [sameGroups, ← List.map_flatten] at named
  exact (covers.map _).symm.trans named

/-- The listed keys that match, of a directory whose names are all read as URLs. -/
theorem DirectoryParts.matched_perm {walk : S3GlobResult} {listed : ParsedS3Url}
    {scheme bucket tail : Text}
    (parts : DirectoryParts environment directory walk listed scheme bucket tail)
    {matched : List Text}
    (reads : ∀ key ∈ matched, ReadsAsUrl opener (trimDirectory directory ++ "/".toList)
      (resultFullUrl walk.parsedS3Url key)) :
    ∃ names : List Text, matched = names.map (tail ++ ·) ∧
      (∀ name ∈ names, ∃ found, resolvePath opener name = .ok found) ∧
      matched.map (resultFullUrl walk.parsedS3Url) =
        names.map (trimDirectory directory ++ "/".toList ++ ·) := by
  induction matched with
  | nil => exact ⟨[], rfl, by simp, rfl⟩
  | cons key matched inductionHypothesis =>
      rcases reads key List.mem_cons_self with ⟨name, found, eq, resolves⟩
      rcases inductionHypothesis fun other member =>
        reads other (List.mem_cons_of_mem key member) with ⟨names, rfl, resolvesAll, urls⟩
      refine ⟨name :: names, ?_, ?_, ?_⟩
      · rw [List.map_cons, parts.key_eq eq]
      · intro other member
        rcases List.mem_cons.mp member with rfl | later
        · exact ⟨found, resolves⟩
        · exact resolvesAll other later
      · rw [List.map_cons, List.map_cons, eq, urls]

/-- A directory without a query string that is removed as it should be keeps its keys. -/
theorem DirectoryParts.keepsFiles {walk : S3GlobResult} {listed : ParsedS3Url}
    {scheme bucket tail : Text}
    (parts : DirectoryParts environment directory walk listed scheme bucket tail)
    (walks : Walks environment opener (joinPath (trimDirectory directory) "**".toList) walk listed)
    (lists : ListsFlat environment bucket content) (isTarget : target.key = tail)
    (deletes : DeletesDirectory joinPath environment opener content target directory) :
    KeepsFiles opener content target directory (reportedUrls environment.glob walk.parsedS3Url
      (content.filter fun key => listed.key.isPrefixOf key)) := by
  by_cases unread : ∃ file ∈ reportedUrls environment.glob walk.parsedS3Url
      (content.filter fun key => listed.key.isPrefixOf key),
      ¬ ReadsAsUrl opener (trimDirectory directory ++ "/".toList) file
  · exact .inl unread
  right
  rcases parts.expandAll lists with ⟨calls, last, expands, files⟩
  have globs : globbedFiles environment opener calls
      (joinPath (trimDirectory directory) "**".toList) = some (.ok last.expandedFiles) := by
    rw [globbedFiles, walks.opens]
    dsimp only
    rw [expands]
    rfl
  rw [reportedUrls] at files unread ⊢
  generalize matchedEq : ((content.filter fun key => listed.key.isPrefixOf key).filter
    fun key => key.getLast? ≠ some '/').filter (accepts environment.glob walk.parsedS3Url) =
      matched at files unread ⊢
  have reads : ∀ key ∈ matched, ReadsAsUrl opener (trimDirectory directory ++ "/".toList)
      (resultFullUrl walk.parsedS3Url key) := by
    intro key member
    by_contra notRead
    exact unread ⟨_, List.mem_map_of_mem member, notRead⟩
  have within : matched.Sublist (keysUnder content target.key) := by
    have sublist : matched.Sublist content := by
      rw [← matchedEq]
      exact (List.filter_sublist.trans List.filter_sublist).trans List.filter_sublist
    have below : matched.filter (fun key => target.key.isPrefixOf key && key.getLast? ≠ some '/') =
        matched := by
      rw [List.filter_eq_self]
      intro key member
      rcases reads key member with ⟨name, found, eq, -⟩
      have noMarker : key.getLast? ≠ some '/' := by
        rw [← matchedEq] at member
        exact of_decide_eq_true (List.mem_filter.mp (List.mem_filter.mp member).1).2
      rw [Bool.and_eq_true, isTarget, parts.key_eq eq]
      exact ⟨List.isPrefixOf_iff_prefix.mpr (List.prefix_append tail name),
        decide_eq_true (parts.key_eq eq ▸ noMarker)⟩
    rw [← below]
    exact sublist.filter _
  rcases parts.matched_perm reads with ⟨listedNames, matchedIs, resolves, urls⟩
  rw [urls] at files
  -- The files come in the order of the pages, and so do their names.
  obtain ⟨names, isNames, permuted⟩ : ∃ names : List Text,
      last.expandedFiles = names.map (trimDirectory directory ++ "/".toList ++ ·) ∧
        names.Perm listedNames := by
    have comp : ∃ names : List Text, _ ∧ _ :=
      (congrFun (congrFun (List.eq_map_comp_perm _) last.expandedFiles) listedNames).mpr files
    exact comp
  rcases deletes.keys_perm globs isNames
    (fun name member => resolves name (permuted.mem_iff.mp member)) with ⟨resolved, all, named⟩
  have shorter := all.totalLength
  have longer : totalLength listedNames ≤ totalLength matched := by
    rw [matchedIs, totalLength, totalLength, List.map_map]
    apply List.sum_le_sum
    intro name member
    simp
  have bounded := totalLength_sublist within
  rw [totalLength_perm named, totalLength_perm permuted] at shorter
  have noNames : listedNames = [] := by
    rw [← List.length_eq_zero_iff, ← permuted.length_eq]
    omega
  subst noNames
  rw [permuted.eq_nil] at all
  cases all
  refine ⟨urls, ?_⟩
  exact named.symm.eq_nil

/-- Keys that keep the directory are what a walk of it lists, unless a wildcard
stands before its query string. -/
theorem KeepsKeys.keepsListing
    (joins : joinPath (trimDirectory directory) "**".toList =
      trimDirectory directory ++ "/**".toList)
    (routed : ∃ scheme rest, directory = scheme ++ "://".toList ++ rest ∧ PlainScheme scheme)
    {params finalized : S3AuthParams} (isParams : params =
      readFrom opener.settings? (joinPath (trimDirectory directory) "**".toList))
    (names : resolve opener.decode (directoryUrl directory) params = .ok (target, finalized))
    (lists : ListsFlat environment target.bucket content)
    (literal : '?' ∈ directory → ∀ byte ∈ directory.takeWhile (· ≠ '?'), byte ∉ wildcards)
    (keeps : KeepsKeys joinPath environment opener content target directory) :
    KeepsListing joinPath environment opener content target directory := by
  intro calls files globs
  rcases globbedFiles_cases globs with rfl | ⟨walk, listed, last, walks, expands, rfl⟩
  · rw [joins]
    exact .inl ⟨_, List.mem_singleton_self _, not_readsAsUrl_pattern⟩
  · by_cases question : '?' ∈ directory
    · rw [joins] at walks
      rcases walks.exists_wildcard question with ⟨byte, member, wild⟩
      exact absurd wild (literal question byte member)
    · rcases (joins ▸ walks).parts routed question with ⟨scheme, bucket, tail, parts⟩
      have mode := walks.opensGlob.2.2
      rw [← isParams] at mode
      rcases parts.target_eq question mode names with ⟨isBucket, -⟩
      rcases parts.expandAll (isBucket ▸ lists) with ⟨others, same, expandsSame, permuted⟩
      cases expandAll_unique expands expandsSame
      exact (keeps walk listed walks).of_perm permuted.symm

/-! ## All directories -/

end Removed

/-- A service whose bucket has the given keys, all of them on one page. -/
def bucketOf (bucket : Text) (content : List Text) : Environment where
  decode := Percent.decode
  glob segment pattern := pattern == "*".toList || segment == pattern
  allowRecursiveGlobbing := none
  service query :=
    ⟨if query.bucket = bucket then
        (content.filter fun key => query.keyPrefix.isPrefixOf key).map Percent.encode
      else [], [], []⟩

theorem bucketOf_listsFlat (bucket : Text) (content : List Text) :
    ListsFlat (bucketOf bucket content) bucket content := by
  intro keyPrefix
  have pages : FlatPages (bucketOf bucket content) bucket keyPrefix [] _ := .last rfl rfl
  refine ⟨_, pages, ?_⟩
  have decoded : ∀ keys : List Text, (keys.map Percent.encode).map Percent.decode = keys := by
    intro keys
    rw [List.map_map]
    conv_rhs => rw [← List.map_id keys]
    exact List.map_congr_left fun key _ => Percent.decode_encode key
  rw [flatPage, bucketOf]
  dsimp only
  rw [if_pos rfl, decoded]

/-- The host system's way to join two paths. -/
private def joinSlash (path other : Text) : Text :=
  path ++ '/' :: other

private def bucketOpener : Opener where
  settings? := some fun _ => {}
  decode := Percent.decode
  initializeParameters _ := {}
  lookupSecret? := none
  credentialRefreshEnabled := false
  hasRefreshableS3Secret _ := false

private def bucketTarget : ParsedS3Url :=
  parsedParts { endpoint := "s3.amazonaws.com".toList } "s3://".toList "b".toList
    "s3://b".toList "d/".toList

private theorem bucketTarget_named :
    resolve bucketOpener.decode (directoryUrl "s3://b/d".toList) (readFrom bucketOpener.settings?
      (joinSlash (trimDirectory "s3://b/d".toList) "**".toList)) =
        .ok (bucketTarget, { endpoint := "s3.amazonaws.com".toList }) :=
  rfl

end Httpfs.S3.Delete
