import Httpfs.S3.Secret.Replay
import Mathlib.Logic.Relation

/-!
# Refreshing a secret again and again

A secret with `refresh 'auto'` that is made again from what it remembers is the same
secret, up to the order of what it remembers, and so it can be refreshed any number of
times.
-/

namespace Httpfs.S3.Secret

open Text Relation

variable {V : Type} {values : Values V} {input : CreateSecretInput V}

/-! ## The same secret -/

theorem Values.struct_injective (values : Values V) : Function.Injective values.struct := by
  intro fields others same
  have names := congrArg values.structNames same
  have children := congrArg values.structChildren same
  rw [values.structNames_struct, values.structNames_struct] at names
  rw [values.structChildren_struct, values.structChildren_struct] at children
  have zipped : (fields.map Prod.fst).zip (fields.map Prod.snd) =
      (others.map Prod.fst).zip (others.map Prod.snd) := by
    rw [names, children]
  rw [List.zip_map', List.zip_map'] at zipped
  simpa using zipped

/-- Two secrets that differ at most in the order of the fields that they remember. -/
structure SameSecret (values : Values V) (first second : KeyValueSecret V) : Prop where
  scope : second.scope = first.scope
  type : second.type = first.type
  provider : second.provider = first.provider
  name : second.name = first.name
  redactKeys : second.redactKeys = first.redactKeys
  secretMap : ∀ key, key ≠ refreshInfoKey → second.secretMap key = first.secretMap key
  refreshInfo : ∃ fields reordered, fields.Perm reordered ∧
    first.secretMap refreshInfoKey = some (values.struct fields) ∧
    second.secretMap refreshInfoKey = some (values.struct reordered)

namespace SameSecret

theorem trans {first second third : KeyValueSecret V} (before : SameSecret values first second)
    (after : SameSecret values second third) : SameSecret values first third where
  scope := after.scope.trans before.scope
  type := after.type.trans before.type
  provider := after.provider.trans before.provider
  name := after.name.trans before.name
  redactKeys := after.redactKeys.trans before.redactKeys
  secretMap key notInfo := (after.secretMap key notInfo).trans (before.secretMap key notInfo)
  refreshInfo := by
    obtain ⟨fields, middle, perm, remembered, rememberedSecond⟩ := before.refreshInfo
    obtain ⟨middle', fields', perm', rememberedSecond', rememberedThird⟩ := after.refreshInfo
    have sameMiddle := values.struct_injective
      (Option.some.inj (rememberedSecond.symm.trans rememberedSecond'))
    subst sameMiddle
    exact ⟨fields, fields', perm.trans perm', remembered, rememberedThird⟩

/-- The same secret has the same credentials. -/
theorem unchanged {first second : KeyValueSecret V} (same : SameSecret values first second) :
    secretCredentialMaterialChanged values first second = false := by
  rw [secretCredentialMaterialChanged, List.any_eq_false]
  intro key member
  have notInfo : key ≠ refreshInfoKey := by
    rintro rfl
    have absent : refreshInfoKey ∉ S3Provider.credentialMaterialKeys := by decide
    exact absent member
  rw [same.secretMap key notInfo]
  cases first.secretMap key with
  | none => exact Bool.false_ne_true
  | some value =>
      dsimp only
      rw [values.notDistinctFrom_self]
      exact Bool.false_ne_true

end SameSecret

/-! ## Made again -/

namespace S3SecretBuilder

/-- How a secret that can be refreshed is made. -/
theorem create_eq_ok {secret : KeyValueSecret V} (auto : AutoRefresh values input)
    (created : create values input = .ok secret) :
    ∃ builder, ofInput input = .ok builder ∧
      (∀ option ∈ input.options.entries, lower option.1 ≠ refreshInfoKey) ∧
      (∀ option ∈ input.options.entries, Accepted values input option) ∧
      secret = (withChanges values input (withDefaults values input builder)
        input.options.entries).secret := by
  obtain ⟨refresh, member, isAuto⟩ := auto
  cases built : ofInput input with
  | error error =>
      rw [create, built] at created
      cases created
  | ok builder =>
      rw [create, built] at created
      change (applyOptions values input (withDefaults values input builder)
        input.options.entries >>= fun builder => pure builder.secret) = _ at created
      cases applied : applyOptions values input (withDefaults values input builder)
          input.options.entries with
      | error error =>
          rw [applied] at created
          cases created
      | ok result =>
          rw [applied] at created
          cases created
          have noInfo := ne_refreshInfo_of_auto isAuto member applied
          have fresh : (withDefaults values input builder).refresh = false := by
            rw [(ofInput_eq_ok built).2]
            rfl
          obtain ⟨accepted, rfl⟩ := (applyOptions_eq_ok_iff input.options.distinct noInfo
            fun _ _ _ => fresh).mp applied
          exact ⟨builder, rfl, noInfo, accepted, rfl⟩

variable {replay : CreateSecretInput V}

theorem Replays.withDefaults_eq (replays : Replays input replay) (builder : S3SecretBuilder V) :
    withDefaults values replay builder = withDefaults values input builder := by
  simp only [withDefaults, S3Provider.applySecretDefaults, replays.type, replays.find?_eq]

/-- In a replay the same options are accepted. -/
theorem Replays.entries_of (replays : Replays input replay)
    (noInfo : ∀ option ∈ input.options.entries, lower option.1 ≠ refreshInfoKey)
    (accepted : ∀ option ∈ input.options.entries, Accepted values input option) :
    ∀ option ∈ replay.options.entries,
      lower option.1 ≠ refreshInfoKey ∧ Accepted values replay option := by
  intro option member
  obtain ⟨original, memberOriginal, rfl⟩ := List.mem_map.mp (replays.options.mem_iff.mp member)
  constructor
  · rw [lower_lower]
    exact noInfo original memberOriginal
  · exact (replays.accepted_iff original).mpr (accepted original memberOriginal)

/-- In a replay the options change the builder in the same way. -/
theorem Replays.conceal_withChanges (replays : Replays input replay) (base : S3SecretBuilder V)
    (noInfo : ∀ option ∈ input.options.entries, lower option.1 ≠ refreshInfoKey)
    (accepted : ∀ option ∈ input.options.entries, Accepted values input option) :
    conceal (withChanges values replay base replay.options.entries) =
      conceal (withChanges values input base input.options.entries) := by
  have entries := replays.entries_of noInfo accepted
  rw [withChanges_perm base replays.options replay.options.distinct
    (fun option member => (entries option member).1)
    (fun option member => (entries option member).2)]
  rw [S3SecretBuilder.conceal_withChanges, S3SecretBuilder.conceal_withChanges, structFields,
    List.foldl_map]
  simp only [replays.conceal_changed]

theorem sameSecret_of_conceal {first second : S3SecretBuilder V}
    (same : conceal second = conceal first)
    (remembered : ∃ fields reordered, fields.Perm reordered ∧
      first.secret.secretMap refreshInfoKey = some (values.struct fields) ∧
      second.secret.secretMap refreshInfoKey = some (values.struct reordered)) :
    SameSecret values first.secret second.secret where
  scope := congrArg (fun builder => builder.secret.scope) same
  type := congrArg (fun builder => builder.secret.type) same
  provider := congrArg (fun builder => builder.secret.provider) same
  name := congrArg (fun builder => builder.secret.name) same
  redactKeys := congrArg (fun builder => builder.secret.redactKeys) same
  secretMap key notInfo := by
    have sameMap := congrArg (fun builder => builder.secret.secretMap key) same
    simpa only [conceal, Function.update_of_ne notInfo] using sameMap
  refreshInfo := remembered

theorem Replays.autoRefresh (replays : Replays input replay) (auto : AutoRefresh values input) :
    AutoRefresh values replay := by
  obtain ⟨refresh, member, isAuto⟩ := auto
  have kept : (lower refresh.1, refresh.2) ∈ replay.options.entries :=
    replays.options.mem_iff.mpr (List.mem_map.mpr ⟨refresh, member, rfl⟩)
  exact ⟨_, kept, { name := (lower_lower refresh.1).trans isAuto.name, value := isAuto.value }⟩

theorem Replays.structFields_perm (replays : Replays input replay) :
    (structFields input.options).Perm (structFields replay.options) := by
  have lowered := replays.options.symm.map fun option : Text × V => (lower option.1, option.2)
  have same : (structFields input.options).map (fun option => (lower option.1, option.2)) =
      structFields input.options := by
    rw [structFields, List.map_map]
    apply List.map_congr_left
    intro option _
    exact congrArg (fun name => (name, option.2)) (lower_lower option.1)
  rw [same] at lowered
  exact lowered

/-- Made again, in the same scope, it is the same secret. -/
theorem Replays.create_eq {secret : KeyValueSecret V} (replays : Replays input replay)
    (auto : AutoRefresh values input) (created : create values input = .ok secret)
    (sameScope : replay.scope = secret.scope) :
    ∃ rebuilt, create values replay = .ok rebuilt ∧ SameSecret values secret rebuilt := by
  obtain ⟨builder, built, noInfo, accepted, rfl⟩ := create_eq_ok auto created
  obtain ⟨someScope, isDescribed⟩ := ofInput_eq_ok built
  have scope : replay.scope = builder.secret.scope :=
    (sameScope.trans (withChanges_described values input _ _).1).trans
      (withDefaults_described values input builder).1
  have rebuilt : ofInput replay = .ok builder := by
    rw [ofInput_of_scope (scope ▸ someScope), isDescribed, described, described, scope,
      replays.type, replays.provider, replays.name]
  have fresh : (withDefaults values replay builder).refresh = false := by
    rw [isDescribed]
    rfl
  have entries := replays.entries_of noInfo accepted
  have sameDefaults : withDefaults values replay builder = withDefaults values input builder :=
    replays.withDefaults_eq builder
  have applied : applyOptions values replay (withDefaults values input builder)
      replay.options.entries = .ok (withChanges values replay (withDefaults values input builder)
        replay.options.entries) :=
    (applyOptions_eq_ok_iff replay.options.distinct
      (fun option member => (entries option member).1)
      (fun _ _ _ => sameDefaults ▸ fresh)).mpr
        ⟨fun option member => (entries option member).2, rfl⟩
  have recreated : create values replay = .ok (withChanges values replay
      (withDefaults values input builder) replay.options.entries).secret := by
    rw [create, rebuilt]
    change (applyOptions values replay (withDefaults values replay builder)
      replay.options.entries >>= fun builder => pure builder.secret) = _
    rw [sameDefaults, applied]
    rfl
  refine ⟨_, recreated, sameSecret_of_conceal ?_ ?_⟩
  · exact replays.conceal_withChanges _ noInfo accepted
  · obtain ⟨refresh, member, isAuto⟩ := auto
    obtain ⟨again, memberAgain, isAutoAgain⟩ := replays.autoRefresh ⟨refresh, member, isAuto⟩
    have remembered := withChanges_refreshInfo (withDefaults values input builder) member
      isAuto.name noInfo accepted
    have rememberedAgain := withChanges_refreshInfo (withDefaults values input builder)
      memberAgain isAutoAgain.name (fun option member => (entries option member).1)
      (fun option member => (entries option member).2)
    exact ⟨_, _, replays.structFields_perm, remembered, rememberedAgain⟩

/-- What a secret that can be refreshed has from its request. -/
theorem described_of_create {secret : KeyValueSecret V} (auto : AutoRefresh values input)
    (created : create values input = .ok secret) :
    secret.type = input.type ∧ secret.provider = input.provider ∧ secret.name = input.name ∧
      secret.secretMap refreshInfoKey = some (values.struct (structFields input.options)) := by
  obtain ⟨builder, built, noInfo, accepted, rfl⟩ := create_eq_ok auto created
  obtain ⟨_, isDescribed⟩ := ofInput_eq_ok built
  obtain ⟨refresh, member, isAuto⟩ := auto
  obtain ⟨_, keptType, keptProvider, keptName⟩ :=
    withChanges_described values input (withDefaults values input builder) input.options.entries
  obtain ⟨_, type, provider, name⟩ := withDefaults_described values input builder
  have ofInput : builder.secret.type = input.type ∧ builder.secret.provider = input.provider ∧
      builder.secret.name = input.name := by
    rw [isDescribed]
    exact ⟨rfl, rfl, rfl⟩
  refine ⟨?_, ?_, ?_, withChanges_refreshInfo _ member isAuto.name noInfo accepted⟩
  · exact (keptType.trans type).trans ofInput.1
  · exact (keptProvider.trans provider).trans ofInput.2.1
  · exact (keptName.trans name).trans ofInput.2.2

end S3SecretBuilder

open S3SecretBuilder

/-! ## Refreshed -/

/-- The request of a refresh, with its options enumerated in any order, is a replay. -/
theorem replays_generateRefreshSecretInfo {secret : KeyValueSecret V} {entry : SecretEntry V}
    {options : Options V} (auto : AutoRefresh values input)
    (created : create values input = .ok secret) (holds : entry.secret = secret)
    (perm : options.entries.Perm (generateRefreshSecretInfo values entry
      (values.struct (structFields input.options))).options.entries) :
    Replays input { generateRefreshSecretInfo values entry
      (values.struct (structFields input.options)) with options } := by
  obtain ⟨type, provider, name, _⟩ := described_of_create auto created
  subst holds
  constructor
  · exact type
  · exact provider
  · exact name
  · exact perm.trans (List.Perm.of_eq (optionsOfStruct_structFields input.options))

/-- A secret manager that makes the secret with the provider, from the options enumerated
in some order. -/
def ConfigProvider (values : Values V)
    (createSecret : CreateSecretInput V → Except ErrorData (KeyValueSecret V)) : Prop :=
  ∀ input, ∃ options : Options V, options.entries.Perm input.options.entries ∧
    createSecret input = create values { input with options }

/-- One refresh of a secret, however it is stored. -/
def Refreshes (values : Values V) (before after : KeyValueSecret V) : Prop :=
  ∃ createSecret message entry, ConfigProvider values createSecret ∧ entry.secret = before ∧
    tryRefreshS3Secret values createSecret message entry = .ok (some after)

/-- A secret that was made from a request with `refresh 'auto'`. -/
def Refreshable (values : Values V) (secret : KeyValueSecret V) : Prop :=
  ∃ input, AutoRefresh values input ∧ create values input = .ok secret

/-- A refresh makes the same secret. -/
theorem Refreshable.tryRefreshS3Secret_eq {secret : KeyValueSecret V}
    (refreshable : Refreshable values secret)
    {createSecret : CreateSecretInput V → Except ErrorData (KeyValueSecret V)}
    (message : ErrorData → String) {entry : SecretEntry V}
    (provider : ConfigProvider values createSecret) (holds : entry.secret = secret) :
    ∃ next, tryRefreshS3Secret values createSecret message entry = .ok (some next) ∧
      Refreshable values next ∧ SameSecret values secret next := by
  obtain ⟨input, auto, created⟩ := refreshable
  obtain ⟨_, _, _, remembered⟩ := described_of_create auto created
  obtain ⟨options, perm, makes⟩ := provider (generateRefreshSecretInfo values entry
    (values.struct (structFields input.options)))
  have replays := replays_generateRefreshSecretInfo auto created holds perm
  obtain ⟨next, rebuilt, same⟩ := replays.create_eq auto created
    (congrArg KeyValueSecret.scope holds)
  have found : entry.secret.secretMap "refresh_info".toList =
      some (values.struct (structFields input.options)) := by
    rw [holds]
    exact remembered
  refine ⟨next, ?_, ⟨_, replays.autoRefresh auto, rebuilt⟩, same⟩
  rw [tryRefreshS3Secret, found]
  dsimp only
  rw [makes, rebuilt]

theorem Refreshable.step {secret next : KeyValueSecret V} (refreshable : Refreshable values secret)
    (refreshed : Refreshes values secret next) :
    Refreshable values next ∧ SameSecret values secret next := by
  obtain ⟨createSecret, message, entry, provider, holds, done⟩ := refreshed
  obtain ⟨next', done', kept, same⟩ := refreshable.tryRefreshS3Secret_eq message provider holds
  cases done.symm.trans done'
  exact ⟨kept, same⟩

theorem Refreshable.sameSecret {secret : KeyValueSecret V}
    (refreshable : Refreshable values secret) : SameSecret values secret secret := by
  obtain ⟨input, auto, created⟩ := refreshable
  obtain ⟨_, _, _, remembered⟩ := described_of_create auto created
  exact ⟨rfl, rfl, rfl, rfl, rfl, fun _ _ => rfl, _, _, List.Perm.refl _, remembered, remembered⟩

/-- Any number of refreshes. -/
theorem Refreshable.run {secret refreshed : KeyValueSecret V}
    (refreshable : Refreshable values secret)
    (run : ReflTransGen (Refreshes values) secret refreshed) :
    Refreshable values refreshed ∧ SameSecret values secret refreshed := by
  induction run with
  | refl => exact ⟨refreshable, refreshable.sameSecret⟩
  | tail _ step inductionHypothesis =>
      have next := inductionHypothesis.1.step step
      exact ⟨next.1, inductionHypothesis.2.trans next.2⟩

/-- Refreshing is a fixpoint: made again from what it remembers, a secret is the same, and
after any number of refreshes it is still the same, has the same credentials, and can be
refreshed. -/
theorem refresh_fixpoint {secret : KeyValueSecret V} (auto : AutoRefresh values input)
    (created : create values input = .ok secret) :
    (∃ refreshInfo, secret.secretMap "refresh_info".toList = some refreshInfo ∧
      ∀ (entry : SecretEntry V) (options : Options V), entry.secret = secret →
        options.entries.Perm (generateRefreshSecretInfo values entry refreshInfo).options.entries →
        ∃ rebuilt, create values
            { generateRefreshSecretInfo values entry refreshInfo with options } = .ok rebuilt ∧
          SameSecret values secret rebuilt) ∧
      ∀ refreshed, ReflTransGen (Refreshes values) secret refreshed →
        SameSecret values secret refreshed ∧
          secretCredentialMaterialChanged values secret refreshed = false ∧
          ∀ createSecret message (entry : SecretEntry V), ConfigProvider values createSecret →
            entry.secret = refreshed →
            ∃ next, tryRefreshS3Secret values createSecret message entry = .ok (some next) ∧
              secretCredentialMaterialChanged values refreshed next = false := by
  constructor
  · obtain ⟨_, _, _, remembered⟩ := described_of_create auto created
    refine ⟨_, remembered, ?_⟩
    intro entry options holds perm
    have replays := replays_generateRefreshSecretInfo auto created holds perm
    exact replays.create_eq auto created (congrArg KeyValueSecret.scope holds)
  · intro refreshed run
    obtain ⟨refreshable, same⟩ := Refreshable.run ⟨input, auto, created⟩ run
    refine ⟨same, same.unchanged, ?_⟩
    intro createSecret message entry provider holds
    obtain ⟨next, done, _, sameNext⟩ := refreshable.tryRefreshS3Secret_eq message provider holds
    exact ⟨next, done, sameNext.unchanged⟩

namespace Example

/-- Texts, booleans and structs. -/
inductive PlainValue
  | varchar (text : Text)
  | boolean (flag : Bool)
  | noField
  | field (name : Text) (value : PlainValue) (others : PlainValue)
  deriving DecidableEq

namespace PlainValue

def struct (fields : List (Text × PlainValue)) : PlainValue :=
  fields.foldr (fun option others => field option.1 option.2 others) noField

def names : PlainValue → List Text
  | field name _ others => name :: others.names
  | _ => []

def children : PlainValue → List PlainValue
  | field _ value others => value :: others.children
  | _ => []

theorem names_struct (fields : List (Text × PlainValue)) :
    (struct fields).names = fields.map Prod.fst := by
  induction fields with
  | nil => rfl
  | cons option fields inductionHypothesis =>
      rw [List.map_cons, ← inductionHypothesis]
      rfl

theorem children_struct (fields : List (Text × PlainValue)) :
    (struct fields).children = fields.map Prod.snd := by
  induction fields with
  | nil => rfl
  | cons option fields inductionHypothesis =>
      rw [List.map_cons, ← inductionHypothesis]
      rfl

def toText : PlainValue → Text
  | varchar text => text
  | boolean flag => if flag then "true".toList else "false".toList
  | _ => []

end PlainValue

def plainValues : Values PlainValue where
  varchar := .varchar
  boolean := .boolean
  struct := .struct
  toText := PlainValue.toText
  isBoolean
    | .boolean _ => true
    | _ => false
  typeName
    | .varchar _ => "VARCHAR".toList
    | .boolean _ => "BOOLEAN".toList
    | _ => "STRUCT".toList
  getString value := .ok value.toText
  getBoolean
    | .boolean flag => .ok flag
    | _ => .error (.invalidInput "not a boolean")
  mapChildren _ := []
  structNames := PlainValue.names
  structChildren := PlainValue.children
  notDistinctFrom value other := value = other
  structNames_struct := PlainValue.names_struct
  structChildren_struct := PlainValue.children_struct
  notDistinctFrom_self _ := decide_eq_true rfl

/-- An R2 account, whose endpoint is made by default. -/
def r2Input : CreateSecretInput PlainValue where
  type := "r2".toList
  name := "bucket".toList
  provider := "config".toList
  scope := []
  options := {
    entries := [
      ("KEY_ID".toList, .varchar "key".toList), ("refresh".toList, .varchar "AUTO".toList),
      ("use_ssl".toList, .boolean true), ("account_id".toList, .varchar "account".toList)]
    distinct := by decide }

def r2Secret : KeyValueSecret PlainValue :=
  let described : KeyValueSecret PlainValue := {
    scope := ["r2://".toList]
    type := "r2".toList
    provider := "config".toList
    name := "bucket".toList
    redactKeys := {"secret".toList, "session_token".toList} }
  let withDefaults := (described.set "endpoint".toList
    (.varchar "account.r2.cloudflarestorage.com".toList)).set "url_style".toList
      (.varchar "path".toList)
  let withRefresh := ((withDefaults.set "key_id".toList (.varchar "key".toList)).set
    "refresh".toList (.varchar "auto".toList)).set "refresh_info".toList (.struct [
      ("key_id".toList, .varchar "key".toList), ("refresh".toList, .varchar "AUTO".toList),
      ("use_ssl".toList, .boolean true), ("account_id".toList, .varchar "account".toList)])
  withRefresh.set "use_ssl".toList (.boolean true)

/-- However often it is refreshed, the account keeps its endpoint. -/
theorem refresh_fixpoint_r2 :
    create plainValues r2Input = .ok r2Secret ∧
      ∀ refreshed, ReflTransGen (Refreshes plainValues) r2Secret refreshed →
        refreshed.secretMap "endpoint".toList =
            some (.varchar "account.r2.cloudflarestorage.com".toList) ∧
          secretCredentialMaterialChanged plainValues r2Secret refreshed = false := by
  have created : create plainValues r2Input = .ok r2Secret := rfl
  have auto : AutoRefresh plainValues r2Input := by
    refine ⟨("refresh".toList, .varchar "AUTO".toList), by decide, ?_⟩
    exact { name := by decide, value := ⟨"AUTO".toList, rfl, by decide⟩ }
  refine ⟨created, ?_⟩
  intro refreshed run
  have fixpoint := (refresh_fixpoint auto created).2 refreshed run
  have notInfo : "endpoint".toList ≠ refreshInfoKey := by decide
  exact ⟨fixpoint.1.secretMap _ notInfo, fixpoint.2.1⟩

end Example

end Httpfs.S3.Secret
