import Httpfs.S3.Glob.Flat
import Httpfs.S3.Glob.Pruning
import Httpfs.Transition.PagedWalk
import Mathlib.Data.List.Dedup

/-!
# Listings by directory

A listing with a delimiter gathers the keys that go on below another slash in the
directories they are in.  A service lists a bucket by directory if its pages have every
other key and every such directory once, in any order and on any number of pages.
-/

namespace Httpfs.S3.Glob

open Text S3GlobMatchMode Transition

variable {environment : Environment} {bucket keyPrefix : Text} {mode : S3ListMode}

/-! ## Pages -/

/-- The keys on the page that answers a request. -/
def listedKeys (environment : Environment) (query : S3ListQuery) : List Text :=
  (environment.service query).objects.map environment.decode

/-- The directories on the page that answers a request. -/
def listedDirectories (environment : Environment) (query : S3ListQuery) : List Text :=
  (environment.service query).commonPrefixes.map environment.decode

/-- The requests for the pages of a listing from a token on. -/
inductive Listing (environment : Environment) (bucket keyPrefix : Text) (mode : S3ListMode) :
    (token : Text) → (queries : List S3ListQuery) → Prop
  | last {token : Text}
      (noMore : (environment.service ⟨bucket, keyPrefix, token, mode⟩).continuationToken = []) :
      Listing environment bucket keyPrefix mode token [⟨bucket, keyPrefix, token, mode⟩]
  | more {token : Text} {queries : List S3ListQuery}
      (continues : (environment.service ⟨bucket, keyPrefix, token, mode⟩).continuationToken ≠ [])
      (rest : Listing environment bucket keyPrefix mode
        (environment.service ⟨bucket, keyPrefix, token, mode⟩).continuationToken queries) :
      Listing environment bucket keyPrefix mode token (⟨bucket, keyPrefix, token, mode⟩ :: queries)

theorem Listing.unique {token : Text} {queries others : List S3ListQuery}
    (listing : Listing environment bucket keyPrefix mode token queries)
    (other : Listing environment bucket keyPrefix mode token others) : queries = others := by
  induction listing generalizing others with
  | last noMore =>
      cases other with
      | last => rfl
      | more continues => exact absurd noMore continues
  | more continues rest inductionHypothesis =>
      cases other with
      | last noMore => exact absurd noMore continues
      | more _ other => rw [inductionHypothesis other]

/-- A request of a listing is made of its parts, and the listing goes on from its token. -/
theorem Listing.exists_of_mem {token : Text} {queries : List S3ListQuery} {query : S3ListQuery}
    (listing : Listing environment bucket keyPrefix mode token queries) (member : query ∈ queries) :
    query = ⟨bucket, keyPrefix, query.continuationToken, mode⟩ ∧
      ∃ rest, Listing environment bucket keyPrefix mode query.continuationToken rest ∧
        rest.length ≤ queries.length := by
  induction listing with
  | @last token noMore =>
      obtain rfl := List.mem_singleton.mp member
      exact ⟨rfl, _, .last noMore, Nat.le_refl _⟩
  | @more token queries continues rest inductionHypothesis =>
      rcases List.mem_cons.mp member with rfl | later
      · exact ⟨rfl, _, .more continues rest, Nat.le_refl _⟩
      · obtain ⟨parts, shorter, lists, length⟩ := inductionHypothesis later
        exact ⟨parts, shorter, lists, length.trans (Nat.le_succ _)⟩

/-- No page of a listing is asked for twice. -/
theorem Listing.nodup {token : Text} {queries : List S3ListQuery}
    (listing : Listing environment bucket keyPrefix mode token queries) : queries.Nodup := by
  induction listing with
  | last noMore => exact List.nodup_singleton _
  | @more token queries continues rest inductionHypothesis =>
      refine List.nodup_cons.mpr ⟨?_, inductionHypothesis⟩
      intro again
      obtain ⟨-, shorter, lists, length⟩ := rest.exists_of_mem again
      have same := lists.unique (.more continues rest)
      rw [same, List.length_cons] at length
      exact absurd length (Nat.not_succ_le_self _)

theorem Listing.ne_nil {token : Text} {queries : List S3ListQuery}
    (listing : Listing environment bucket keyPrefix mode token queries) : queries ≠ [] := by
  cases listing with
  | last => exact List.cons_ne_nil _ _
  | more => exact List.cons_ne_nil _ _

/-- The requests of a flat listing. -/
theorem FlatPages.exists_listing {token : Text} {keys : List Text}
    (pages : FlatPages environment bucket keyPrefix token keys) :
    ∃ queries, Listing environment bucket keyPrefix .flat token queries ∧
      queries.flatMap (listedKeys environment) = keys ∧
      ∀ query ∈ queries, (environment.service query).commonPrefixes = [] := by
  induction pages with
  | last noPrefixes noMore =>
      refine ⟨_, .last noMore, List.flatMap_singleton _ _, ?_⟩
      exact List.forall_mem_singleton.mpr noPrefixes
  | more noPrefixes continues rest inductionHypothesis =>
      obtain ⟨queries, listing, keysEq, flat⟩ := inductionHypothesis
      refine ⟨_, .more continues listing, ?_, List.forall_mem_cons.mpr ⟨noPrefixes, flat⟩⟩
      rw [List.flatMap_cons, keysEq]
      rfl

/-! ## Directories -/

/-- The directory in which a listing with a delimiter gathers a key. -/
def commonPrefix (keyPrefix key : Text) : Option Text :=
  let rest := key.drop keyPrefix.length
  if '/' ∈ rest then some (keyPrefix ++ rest.takeWhile (· ≠ '/') ++ ['/']) else none

/-- The keys that start with a text. -/
def keysBelow (content : List Text) (keyPrefix : Text) : List Text :=
  content.filter fun key => keyPrefix.isPrefixOf key

/-- The directories in which a listing gathers keys. -/
def children (content : List Text) (keyPrefix : Text) : List Text :=
  ((keysBelow content keyPrefix).filterMap (commonPrefix keyPrefix)).dedup

/-- A listing by directory of a bucket has every key that starts with the requested prefix
once: by itself, or in the directory that is listed once for all keys in it. -/
def ListsByDirectory (environment : Environment) (bucket : Text) (content : List Text) : Prop :=
  ∀ keyPrefix, ∃ queries, Listing environment bucket keyPrefix .hierarchical [] queries ∧
    (queries.flatMap (listedKeys environment)).Perm
      ((keysBelow content keyPrefix).filter fun key => (commonPrefix keyPrefix key).isNone) ∧
    (queries.flatMap (listedDirectories environment)).Perm (children content keyPrefix) ∧
    ∀ query ∈ queries, ∀ name ∈ (environment.service query).commonPrefixes, name ≠ []

theorem mem_keysBelow {content : List Text} {key : Text} :
    key ∈ keysBelow content keyPrefix ↔ key ∈ content ∧ keyPrefix <+: key := by
  rw [keysBelow, List.mem_filter, List.isPrefixOf_iff_prefix]

/-- A key is gathered in the directory right below the prefix that it is in. -/
theorem commonPrefix_eq_some_iff {key directory : Text} (starts : keyPrefix <+: key) :
    commonPrefix keyPrefix key = some directory ↔
      (∃ segment, '/' ∉ segment ∧ directory = keyPrefix ++ segment ++ ['/']) ∧
        directory <+: key := by
  obtain ⟨rest, rfl⟩ := starts
  have dropped : (keyPrefix ++ rest).drop keyPrefix.length = rest := List.drop_left
  rw [commonPrefix, dropped]
  constructor
  · intro gathers
    split at gathers
    · rename_i slash
      obtain ⟨segment, after, rfl, free⟩ := List.eq_append_cons_of_mem slash
      rw [takeWhile_ne_append free] at gathers
      cases gathers
      refine ⟨⟨segment, free, rfl⟩, after, ?_⟩
      simp
    · contradiction
  · rintro ⟨⟨segment, free, rfl⟩, after, eq⟩
    have restEq : rest = segment ++ '/' :: after := by
      rw [List.append_assoc, List.append_assoc] at eq
      simpa using (List.append_cancel_left eq).symm
    subst restEq
    rw [if_pos (List.mem_append_right _ List.mem_cons_self), takeWhile_ne_append free]

theorem mem_children {content : List Text} {directory : Text} :
    directory ∈ children content keyPrefix ↔
      (∃ segment, '/' ∉ segment ∧ directory = keyPrefix ++ segment ++ ['/']) ∧
        ∃ key ∈ content, directory <+: key := by
  rw [children, List.mem_dedup, List.mem_filterMap]
  constructor
  · rintro ⟨key, member, gathers⟩
    obtain ⟨inContent, starts⟩ := mem_keysBelow.mp member
    obtain ⟨parts, below⟩ := (commonPrefix_eq_some_iff starts).mp gathers
    exact ⟨parts, key, inContent, below⟩
  · rintro ⟨⟨segment, free, rfl⟩, key, inContent, below⟩
    have starts : keyPrefix <+: key := by
      rw [List.append_assoc] at below
      exact (List.prefix_append _ _).trans below
    exact ⟨key, mem_keysBelow.mpr ⟨inContent, starts⟩,
      (commonPrefix_eq_some_iff starts).mpr ⟨⟨segment, free, rfl⟩, below⟩⟩

/-- Directories right below one prefix are not below each other. -/
theorem eq_of_children_below {content : List Text} {child other : Text}
    (isChild : child ∈ children content keyPrefix) (isOther : other ∈ children content keyPrefix)
    (below : child <+: other) : child = other := by
  obtain ⟨⟨segment, free, rfl⟩, -⟩ := mem_children.mp isChild
  obtain ⟨⟨second, secondFree, rfl⟩, -⟩ := mem_children.mp isOther
  obtain ⟨rest, eq⟩ := below
  have same : segment ++ '/' :: rest = second ++ ['/'] := by
    simpa using eq
  rw [((append_cons_inj free secondFree).mp same).1]

theorem nodup_keysBelow {content : List Text} (distinct : content.Nodup) (keyPrefix : Text) :
    (keysBelow content keyPrefix).Nodup :=
  distinct.filter _

/-- The keys below a prefix are those a listing has by themselves and those below the
directories it has. -/
theorem keysBelow_perm {content : List Text} (distinct : content.Nodup) (keyPrefix : Text) :
    (keysBelow content keyPrefix).Perm
      (((keysBelow content keyPrefix).filter fun key => (commonPrefix keyPrefix key).isNone) ++
        (children content keyPrefix).flatMap (keysBelow content)) := by
  have starts : ∀ directory ∈ children content keyPrefix, ∀ key,
      directory <+: key → keyPrefix <+: key := by
    intro directory isChild key below
    obtain ⟨⟨segment, -, rfl⟩, -⟩ := mem_children.mp isChild
    rw [List.append_assoc] at below
    exact (List.prefix_append _ _).trans below
  have gathered : ∀ directory ∈ children content keyPrefix, ∀ key,
      directory <+: key → commonPrefix keyPrefix key = some directory := by
    intro directory isChild key below
    exact (commonPrefix_eq_some_iff (starts directory isChild key below)).mpr
      ⟨(mem_children.mp isChild).1, below⟩
  have apart : (((keysBelow content keyPrefix).filter fun key =>
      (commonPrefix keyPrefix key).isNone) ++
        (children content keyPrefix).flatMap (keysBelow content)).Nodup := by
    rw [List.nodup_append, List.nodup_flatMap]
    refine ⟨(nodup_keysBelow distinct keyPrefix).filter _,
      ⟨fun directory _ => nodup_keysBelow distinct directory, ?_⟩, ?_⟩
    · apply (List.nodup_dedup _).imp_of_mem
      intro directory other isChild isOther different key inFirst inSecond
      have first := gathered directory isChild key (mem_keysBelow.mp inFirst).2
      have second := gathered other isOther key (mem_keysBelow.mp inSecond).2
      exact different (Option.some.inj (first.symm.trans second))
    · rintro key alone _ inDirectory rfl
      obtain ⟨directory, isChild, below⟩ := List.mem_flatMap.mp inDirectory
      have gathers := gathered directory isChild key (mem_keysBelow.mp below).2
      have notGathered := (List.mem_filter.mp alone).2
      rw [gathers] at notGathered
      contradiction
  apply (List.perm_ext_iff_of_nodup (nodup_keysBelow distinct keyPrefix) apart).mpr
  intro key
  rw [List.mem_append, List.mem_filter, List.mem_flatMap]
  constructor
  · intro member
    cases gathers : commonPrefix keyPrefix key with
    | none => exact .inl ⟨member, rfl⟩
    | some directory =>
        obtain ⟨inContent, begins⟩ := mem_keysBelow.mp member
        obtain ⟨parts, below⟩ := (commonPrefix_eq_some_iff begins).mp gathers
        exact .inr ⟨directory, mem_children.mpr ⟨parts, key, inContent, below⟩,
          mem_keysBelow.mpr ⟨inContent, below⟩⟩
  · rintro (⟨member, -⟩ | ⟨directory, isChild, member⟩)
    · exact member
    · obtain ⟨inContent, below⟩ := mem_keysBelow.mp member
      exact mem_keysBelow.mpr ⟨inContent, starts directory isChild key below⟩

end Httpfs.S3.Glob
