import Httpfs.S3.Glob.FirstCall

/-!
# A service that lists on two pages

The first page of every listing has a number of keys, the second one the other keys and
the directories.  Where the names in the bucket have nothing that decoding changes, a walk
can list every directory.
-/

namespace Httpfs.S3.Glob

open Text S3GlobMatchMode Transition

/-- The keys that a listing has by themselves. -/
def ownKeys (content : List Text) (query : S3ListQuery) : List Text :=
  match query.mode with
  | .flat => keysBelow content query.keyPrefix
  | .hierarchical => (keysBelow content query.keyPrefix).filter fun key =>
      (commonPrefix query.keyPrefix key).isNone

/-- The directories that a listing has. -/
def ownDirectories (content : List Text) (query : S3ListQuery) : List Text :=
  match query.mode with
  | .flat => []
  | .hierarchical => children content query.keyPrefix

/-- A service with so many keys on the first page of a listing. -/
def twoPageService (content : List Text) (size : Nat) (query : S3ListQuery) :
    S3ListObjectsV2Result :=
  if query.continuationToken = [] then
    ⟨((ownKeys content query).take size).map Percent.encode, [], "t".toList⟩
  else
    ⟨((ownKeys content query).drop size).map Percent.encode,
      (ownDirectories content query).map Percent.encode, []⟩

/-- A walk over such a service. -/
def twoPageBucket (content : List Text) (size : Nat) : Environment where
  decode := Percent.decode
  glob segment pattern := pattern == "*".toList || segment == pattern
  allowRecursiveGlobbing := none
  service := twoPageService content size

variable {content : List Text} {size : Nat}

/-! ## The listings -/

theorem map_decode_encode (texts : List Text) :
    (texts.map Percent.encode).map Percent.decode = texts := by
  rw [List.map_map]
  conv_rhs => rw [← List.map_id texts]
  exact List.map_congr_left fun text _ => Percent.decode_encode text

theorem twoPageBucket_listing (bucket keyPrefix : Text) (mode : S3ListMode) :
    Listing (twoPageBucket content size) bucket keyPrefix mode []
      [⟨bucket, keyPrefix, [], mode⟩, ⟨bucket, keyPrefix, "t".toList, mode⟩] := by
  apply Listing.more
  · exact List.cons_ne_nil _ _
  · exact .last rfl

theorem twoPageBucket_keys (bucket keyPrefix : Text) (mode : S3ListMode) :
    [(⟨bucket, keyPrefix, [], mode⟩ : S3ListQuery),
        ⟨bucket, keyPrefix, "t".toList, mode⟩].flatMap
      (listedKeys (twoPageBucket content size)) =
        ownKeys content ⟨bucket, keyPrefix, [], mode⟩ := by
  rw [List.flatMap_cons, List.flatMap_singleton]
  have first : listedKeys (twoPageBucket content size) ⟨bucket, keyPrefix, [], mode⟩ =
      (ownKeys content ⟨bucket, keyPrefix, [], mode⟩).take size := map_decode_encode _
  have second : listedKeys (twoPageBucket content size) ⟨bucket, keyPrefix, "t".toList, mode⟩ =
      (ownKeys content ⟨bucket, keyPrefix, [], mode⟩).drop size := map_decode_encode _
  rw [first, second]
  exact List.take_append_drop _ _

theorem twoPageBucket_directories (bucket keyPrefix : Text) (mode : S3ListMode) :
    [(⟨bucket, keyPrefix, [], mode⟩ : S3ListQuery),
        ⟨bucket, keyPrefix, "t".toList, mode⟩].flatMap
      (listedDirectories (twoPageBucket content size)) =
        ownDirectories content ⟨bucket, keyPrefix, [], mode⟩ := by
  rw [List.flatMap_cons, List.flatMap_singleton]
  have first : listedDirectories (twoPageBucket content size)
      ⟨bucket, keyPrefix, [], mode⟩ = [] := rfl
  have second : listedDirectories (twoPageBucket content size)
      ⟨bucket, keyPrefix, "t".toList, mode⟩ =
        ownDirectories content ⟨bucket, keyPrefix, [], mode⟩ := map_decode_encode _
  rw [first, second, List.nil_append]

theorem twoPageBucket_named (bucket keyPrefix : Text) :
    ∀ query ∈ [(⟨bucket, keyPrefix, [], .hierarchical⟩ : S3ListQuery),
        ⟨bucket, keyPrefix, "t".toList, .hierarchical⟩],
      ∀ name ∈ ((twoPageBucket content size).service query).commonPrefixes, name ≠ [] := by
  intro query member name isName
  rcases List.mem_cons.mp member with rfl | member
  · contradiction
  · obtain rfl := List.mem_singleton.mp member
    obtain ⟨directory, isDirectory, rfl⟩ := List.mem_map.mp isName
    obtain ⟨⟨segment, -, rfl⟩, -⟩ := mem_children.mp isDirectory
    intro empty
    have decoded := congrArg Percent.decode empty
    rw [Percent.decode_encode] at decoded
    exact absurd decoded (List.append_ne_nil_of_right_ne_nil _ (List.cons_ne_nil _ _))

theorem twoPageBucket_listsBucket (bucket : Text) (distinct : content.Nodup) :
    ListsBucket (twoPageBucket content size) bucket content where
  distinct := distinct
  flat := by
    intro keyPrefix
    have pages : FlatPages (twoPageBucket content size) bucket keyPrefix [] _ :=
      .more rfl (List.cons_ne_nil _ _) (.last rfl rfl)
    refine ⟨_, pages, ?_⟩
    have keys := @twoPageBucket_keys content size bucket keyPrefix .flat
    rw [List.flatMap_cons, List.flatMap_singleton] at keys
    exact List.Perm.of_eq keys
  byDirectory := by
    intro keyPrefix
    refine ⟨_, twoPageBucket_listing bucket keyPrefix .hierarchical, ?_, ?_,
      twoPageBucket_named bucket keyPrefix⟩
    · exact List.Perm.of_eq (twoPageBucket_keys bucket keyPrefix .hierarchical)
    · exact List.Perm.of_eq (twoPageBucket_directories bucket keyPrefix .hierarchical)

/-! ## Names that decoding keeps -/


/-- A text that decoding does not change wherever it stands. -/
def Unescaped (text : Text) : Prop :=
  ∀ byte ∈ text, byte ≠ '%' ∧ byte ≠ '+'

instance (text : Text) : Decidable (Unescaped text) :=
  inferInstanceAs (Decidable (∀ byte ∈ text, byte ≠ '%' ∧ byte ≠ '+'))

theorem Unescaped.decode_append {front : Text} (unescaped : Unescaped front) (back : Text) :
    Percent.decode (front ++ back) = front ++ Percent.decode back := by
  induction front with
  | nil => rfl
  | cons byte front inductionHypothesis =>
      obtain ⟨⟨noPercent, noPlus⟩, others⟩ := List.forall_mem_cons.mp unescaped
      rw [List.cons_append, Percent.decode_cons noPercent noPlus, inductionHypothesis others]
      rfl

theorem Unescaped.decode_eq {text : Text} (unescaped : Unescaped text) :
    Percent.decode text = text := by
  have decoded := unescaped.decode_append []
  rwa [List.append_nil, Percent.decode, List.append_nil] at decoded

/-- A directory of a bucket whose keys have no escapes keeps its name. -/
theorem twoPageBucket_keepsName {parsedS3Url : ParsedS3Url} {bucket literal directory : Text}
    (front : Unescaped (parsedS3Url.urlPrefix ++ parsedS3Url.bucket ++ "/".toList))
    (keys : ∀ key ∈ content, Unescaped key) (isDirectory : IsDirectory content literal directory) :
    KeepsName (twoPageBucket content size) parsedS3Url bucket directory where
  front := by
    rintro name rfl
    exact front.decode_append name
  again := by
    right
    obtain ⟨key, inContent, below⟩ := isDirectory.inhabited
    have unescaped : Unescaped directory := fun byte member =>
      keys key inContent byte (below.subset member)
    exact unescaped.decode_eq

/-! ## A walk over such a service -/

/-- The walk over `s3://b/d/*/x` before its first call. -/
def starWalk : S3GlobResult where
  globPattern := "s3://b/d/*/x".toList
  authParams := { endpoint := "s3.amazonaws.com".toList }
  sharedPath := "s3://b/d/".toList
  parsedS3Url := parsedParts { endpoint := "s3.amazonaws.com".toList } "s3://".toList
    "b".toList "s3://b".toList "d/*/x".toList

theorem openGlob_starWalk :
    openGlob (twoPageBucket content size) "s3://b/d/*/x".toList {} = .ok starWalk :=
  rfl

theorem starWalk_routed :
    (tryMatchUrlOrAlias "s3://b/d/*/x".toList
      (getSchemeAliasPrefixes (fun _ => false) [])).isSome = true := by
  decide

theorem starWalk_keepsNames {literal : Text} (keys : ∀ key ∈ content, Unescaped key) :
    KeepsNames (twoPageBucket content size) starWalk.parsedS3Url content
      starWalk.parsedS3Url.bucket literal :=
  fun _ isDirectory _ => twoPageBucket_keepsName (by decide) keys isDirectory

theorem starWalk_noQuestionMark {literal : Text} (keys : ∀ key ∈ content, '?' ∉ key) :
    NoQuestionMark (twoPageBucket content size).glob starWalk.parsedS3Url content literal := by
  intro directory isDirectory _ question
  obtain ⟨key, inContent, below⟩ := isDirectory.inhabited
  exact keys key inContent (below.subset question)

end Httpfs.S3.Glob
