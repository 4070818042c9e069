import Httpfs.Core.Error
import Httpfs.Text.Core
import Mathlib.Data.Finset.Insert
import Mathlib.Data.Finset.Lattice.Basic
import Mathlib.Logic.Function.Basic

/-!
# Creating and refreshing secrets

A secret is made from named options.  With the option `refresh` it remembers the options
it was made from, and a refresh makes it again from them.

The values of the options are those of the database; what the secrets do with values is
a parameter.
-/

namespace Httpfs.S3.Secret

open Text

/-! ## Values and options -/

/-- What is done with values.  A struct has the fields it was made of, and a value is not
distinct from itself. -/
structure Values (V : Type) where
  varchar : Text → V
  boolean : Bool → V
  struct : List (Text × V) → V
  toText : V → Text
  isBoolean : V → Bool
  typeName : V → Text
  getString : V → Except ErrorData Text
  getBoolean : V → Except ErrorData Bool
  mapChildren : V → List V
  structNames : V → List Text
  structChildren : V → List V
  notDistinctFrom : V → V → Bool
  structNames_struct : ∀ fields, structNames (struct fields) = fields.map Prod.fst
  structChildren_struct : ∀ fields, structChildren (struct fields) = fields.map Prod.snd
  notDistinctFrom_self : ∀ value, notDistinctFrom value value = true

/-- Named options, in the order in which the map enumerates them; names are compared
without regard to letter case. -/
structure Options (V : Type) where
  entries : List (Text × V)
  distinct : (entries.map fun option => lower option.1).Nodup

namespace Options

variable {V : Type}

def empty : Options V :=
  ⟨[], List.nodup_nil⟩

def names (options : Options V) : List Text :=
  options.entries.map fun option => lower option.1

def find? (options : Options V) (name : Text) : Option V :=
  (options.entries.find? fun option => lower option.1 = lower name).map Prod.snd

/-- `options[name] = value`. -/
def set (options : Options V) (name : Text) (value : V) : Options V :=
  if present : lower name ∈ options.names then
    ⟨options.entries.map fun option =>
        if lower option.1 = lower name then (option.1, value) else option, by
      have kept : (options.entries.map fun option =>
          if lower option.1 = lower name then (option.1, value) else option).map
            (fun option => lower option.1) = options.names := by
        rw [List.map_map, names]
        apply List.map_congr_left
        intro option _
        dsimp only [Function.comp_apply]
        split <;> rfl
      rw [kept]
      exact options.distinct⟩
  else
    ⟨options.entries ++ [(name, value)], by
      rw [List.map_append, List.map_singleton, List.nodup_append]
      refine ⟨options.distinct, List.nodup_singleton _, ?_⟩
      rintro _ member _ isNew rfl
      exact present (List.mem_singleton.mp isNew ▸ member)⟩

end Options

inductive SecretPersistType
  | default
  | temporary
  | persistent
  | transaction
  deriving DecidableEq, Repr

inductive OnCreateConflict
  | errorOnConflict
  | ignoreOnConflict
  | replaceOnConflict
  | alterOnConflict
  deriving DecidableEq, Repr

structure CreateSecretInput (V : Type) where
  type : Text
  storageType : Text := []
  name : Text
  provider : Text
  persistType : SecretPersistType := .default
  scope : List Text
  options : Options V
  onConflict : OnCreateConflict := .errorOnConflict

structure KeyValueSecret (V : Type) where
  scope : List Text
  type : Text
  provider : Text
  name : Text
  secretMap : Text → Option V := fun _ => none
  redactKeys : Finset Text := ∅

def KeyValueSecret.set {V : Type} (secret : KeyValueSecret V) (key : Text) (value : V) :
    KeyValueSecret V :=
  { secret with secretMap := Function.update secret.secretMap key (some value) }

/-- A secret and how it is stored. -/
structure SecretEntry (V : Type) where
  secret : KeyValueSecret V
  persistType : SecretPersistType
  storageMode : Text

/-! ## Providers -/

namespace S3Provider

def defaultSecretScope (secretType : Text) : Except ErrorData (List Text) :=
  if secretType = "s3".toList then .ok ["s3://".toList, "s3n://".toList, "s3a://".toList]
  else if secretType = "r2".toList then .ok ["r2://".toList]
  else if secretType = "gcs".toList then .ok ["gcs://".toList, "gs://".toList]
  else if secretType = "aws".toList then .ok [[]]
  else
    .error (.internal ("Unknown secret type found in httpfs extension: '" ++
      String.ofList secretType ++ "'"))

def credentialMaterialKeys : List Text :=
  ["key_id".toList, "secret".toList, "session_token".toList, "region".toList, "endpoint".toList,
    "kms_key_id".toList, "url_style".toList, "use_ssl".toList, "url_compatibility_mode".toList,
    "requester_pays".toList, "bearer_token".toList, "account_id".toList]

variable {V : Type} (values : Values V)

def applySecretDefaults (input : CreateSecretInput V) (secret : KeyValueSecret V) :
    KeyValueSecret V :=
  if input.type ≠ "r2".toList then secret
  else
    match input.options.find? "account_id".toList with
    | none => secret
    | some accountId =>
        (secret.set "endpoint".toList
            (values.varchar (values.toText accountId ++ ".r2.cloudflarestorage.com".toList))).set
          "url_style".toList (values.varchar "path".toList)

/-- The secret with an option that only some types have. -/
def tryApplySecretOption (input : CreateSecretInput V) (name : Text) (value : V)
    (secret : KeyValueSecret V) : Option (KeyValueSecret V) :=
  if name = "account_id".toList ∧ input.type = "r2".toList then some secret
  else if name = "bearer_token".toList ∧ input.type = "gcs".toList then
    let secret := secret.set "bearer_token".toList (values.varchar (values.toText value))
    some { secret with redactKeys := insert "bearer_token".toList secret.redactKeys }
  else none

end S3Provider

/-! ## Making a secret -/

variable {V : Type} (values : Values V)

def mapToStruct (map : V) : Except ErrorData V := do
  let structFields ← (values.mapChildren map).mapM fun child =>
    match values.structChildren child with
    | [key, value] => .ok (values.toText key, value)
    | _ => .error (.invalidInput "Invalid input passed to refresh_info")
  pure (values.struct structFields)

structure S3SecretBuilder (V : Type) where
  secret : KeyValueSecret V
  refresh : Bool := false

namespace S3SecretBuilder

/-- The constructor. -/
def ofInput (input : CreateSecretInput V) : Except ErrorData (S3SecretBuilder V) := do
  let scope ← if input.scope.isEmpty then S3Provider.defaultSecretScope input.type
    else pure input.scope
  pure { secret := {
    scope
    type := input.type
    provider := input.provider
    name := input.name
    redactKeys := {"secret".toList, "session_token".toList} } }

def set (builder : S3SecretBuilder V) (key : Text) (value : V) : S3SecretBuilder V :=
  { builder with secret := builder.secret.set key value }

def setBooleanOption (builder : S3SecretBuilder V) (name : Text) (value : V) :
    Except ErrorData (S3SecretBuilder V) := do
  if !values.isBoolean value then
    throw (.invalidInput ("Invalid type passed to secret option: '" ++ String.ofList name ++
      "', found '" ++ String.ofList (values.typeName value) ++ "', expected: 'BOOLEAN'"))
  else pure (builder.set name (values.boolean (← values.getBoolean value)))

def refreshTwice : ErrorData :=
  .invalidInput "Can not set `refresh` and `refresh_info` at the same time"

/-- The options as they are remembered. -/
def structFields (options : Options V) : List (Text × V) :=
  options.entries.map fun option => (lower option.1, option.2)

def setRefresh (input : CreateSecretInput V) (builder : S3SecretBuilder V) (value : V) :
    Except ErrorData (S3SecretBuilder V) := do
  if builder.refresh then throw refreshTwice
  else
    let refresh := lower (← values.getString value) == "auto".toList
    let builder := { builder with refresh }
    pure ((builder.set "refresh".toList (values.varchar "auto".toList)).set "refresh_info".toList
      (values.struct (structFields input.options)))

def setRefreshInfo (builder : S3SecretBuilder V) (value : V) :
    Except ErrorData (S3SecretBuilder V) := do
  if builder.refresh then throw refreshTwice
  else
    let builder := { builder with refresh := true }
    pure (builder.set "refresh_info".toList (← mapToStruct values value))

/-- Options that are stored as they are. -/
def plainOptions : List Text :=
  ["key_id".toList, "secret".toList, "http_proxy".toList, "http_proxy_password".toList,
    "http_proxy_username".toList, "extra_http_headers".toList]

/-- Options that are stored as text. -/
def textOptions : List Text :=
  ["region".toList, "session_token".toList, "endpoint".toList, "kms_key_id".toList]

def booleanOptions : List Text :=
  ["use_ssl".toList, "verify_ssl".toList, "url_compatibility_mode".toList,
    "requester_pays".toList]

def applyOption (input : CreateSecretInput V) (builder : S3SecretBuilder V) (name : Text)
    (value : V) : Except ErrorData (S3SecretBuilder V) :=
  if name ∈ plainOptions then pure (builder.set name value)
  else if name ∈ textOptions then pure (builder.set name (values.varchar (values.toText value)))
  else if name = "url_style".toList then
    pure (builder.set name (values.varchar (lower (values.toText value))))
  else if name ∈ booleanOptions then builder.setBooleanOption values name value
  else if name = "refresh".toList then setRefresh values input builder value
  else if name = "refresh_info".toList then builder.setRefreshInfo values value
  else
    match S3Provider.tryApplySecretOption values input name value builder.secret with
    | some secret => pure { builder with secret }
    | none =>
        throw (.invalidInput ("Unknown named parameter passed to CreateSecretFunctionInternal: " ++
          String.ofList name))

/-- The options one after the other. -/
def applyOptions (input : CreateSecretInput V) (builder : S3SecretBuilder V) :
    List (Text × V) → Except ErrorData (S3SecretBuilder V)
  | [] => pure builder
  | option :: rest => do
      applyOptions input (← builder.applyOption values input (lower option.1) option.2) rest

def create (input : CreateSecretInput V) : Except ErrorData (KeyValueSecret V) := do
  let builder ← ofInput input
  let builder :=
    { builder with secret := S3Provider.applySecretDefaults values input builder.secret }
  let builder ← applyOptions values input builder input.options.entries
  pure builder.secret

end S3SecretBuilder

/-! ## Refreshing a secret -/

/-- The options of a struct, set one after the other. -/
def optionsOfStruct (refreshInfo : V) : Options V :=
  ((values.structNames refreshInfo).zip (values.structChildren refreshInfo)).foldl
    (fun options field => options.set field.1 field.2) .empty

def generateRefreshSecretInfo (secretEntry : SecretEntry V) (refreshInfo : V) :
    CreateSecretInput V where
  onConflict := .replaceOnConflict
  persistType := secretEntry.persistType
  type := secretEntry.secret.type
  name := secretEntry.secret.name
  provider := secretEntry.secret.provider
  storageType := if secretEntry.persistType ≠ .transaction then secretEntry.storageMode else []
  scope := secretEntry.secret.scope
  options := optionsOfStruct values refreshInfo

def secretCredentialMaterialChanged (oldSecret newSecret : KeyValueSecret V) : Bool :=
  S3Provider.credentialMaterialKeys.any fun key =>
    match oldSecret.secretMap key, newSecret.secretMap key with
    | none, none => false
    | some oldValue, some newValue => !values.notDistinctFrom oldValue newValue
    | _, _ => true

/-- `TryRefreshS3Secret`, with the call of the secret manager and the text of an error:
the secret that the manager made, or none without a `refresh_info`. -/
def tryRefreshS3Secret (createSecret : CreateSecretInput V → Except ErrorData (KeyValueSecret V))
    (message : ErrorData → String) (secretToRefresh : SecretEntry V) :
    Except ErrorData (Option (KeyValueSecret V)) :=
  match secretToRefresh.secret.secretMap "refresh_info".toList with
  | none => .ok none
  | some refreshInfo =>
      match createSecret (generateRefreshSecretInfo values secretToRefresh refreshInfo) with
      | .ok newSecret => .ok (some newSecret)
      | .error error =>
          .error ⟨[], error.type, "Exception thrown while trying to refresh secret " ++
            String.ofList secretToRefresh.secret.name ++
            ". To fix this, please recreate or remove the secret and try again. Error: '" ++
            message error ++ "'"⟩

end Httpfs.S3.Secret
