import Httpfs.S3.Secret.Create
import Mathlib.Data.Finset.Lattice.Lemmas

/-!
# Options in any order

Each option changes entries of the secret that no other one changes, so what a list of
options makes of a secret does not depend on its order.  Only `refresh_info` remembers
the order.
-/

namespace Httpfs.S3.Secret

open Text

variable {V : Type} {values : Values V} {input : CreateSecretInput V}

def refreshKey : Text :=
  "refresh".toList

def refreshInfoKey : Text :=
  "refresh_info".toList

/-! ## Enumerations -/

namespace Options

theorem find?_eq_some_iff {options : Options V} {name : Text} {value : V} :
    options.find? name = some value ↔
      ∃ option ∈ options.entries, lower option.1 = lower name ∧ option.2 = value := by
  rw [find?, Option.map_eq_some_iff]
  constructor
  · rintro ⟨option, found, rfl⟩
    have same : lower option.1 = lower name := by simpa using List.find?_some found
    exact ⟨option, List.mem_of_find?_eq_some found, same, rfl⟩
  · rintro ⟨option, member, same, rfl⟩
    cases found : options.entries.find? fun option => lower option.1 = lower name with
    | none =>
        have other := List.find?_eq_none.mp found option member
        exact absurd (decide_eq_true same) other
    | some first =>
        have sameFirst : lower first.1 = lower name := by simpa using List.find?_some found
        have isFirst := List.inj_on_of_nodup_map options.distinct
          (List.mem_of_find?_eq_some found) member (sameFirst.trans same.symm)
        exact ⟨first, rfl, congrArg Prod.snd isFirst⟩

theorem entries_set {options : Options V} {name : Text} (absent : lower name ∉ options.names)
    (value : V) : (options.set name value).entries = options.entries ++ [(name, value)] := by
  rw [set, dif_neg absent]

/-- Fields with distinct names are options. -/
theorem entries_foldl_set {options : Options V} {fields : List (Text × V)}
    (distinct : ((options.entries ++ fields).map fun field => lower field.1).Nodup) :
    (fields.foldl (fun options field => options.set field.1 field.2) options).entries =
      options.entries ++ fields := by
  induction fields generalizing options with
  | nil => exact (List.append_nil _).symm
  | cons field fields inductionHypothesis =>
      have absent : lower field.1 ∉ options.names := by
        rw [List.map_append, List.nodup_append] at distinct
        exact fun present => distinct.2.2 _ present _ List.mem_cons_self rfl
      have entries := entries_set absent field.2
      have regrouped : (options.set field.1 field.2).entries ++ fields =
          options.entries ++ field :: fields := by
        rw [entries, List.append_assoc]
        rfl
      rw [List.foldl_cons, inductionHypothesis (by rwa [regrouped]), regrouped]

end Options

theorem distinct_structFields (options : Options V) :
    ((S3SecretBuilder.structFields options).map fun field => lower field.1).Nodup := by
  have lowered : (S3SecretBuilder.structFields options).map (fun field => lower field.1) =
      options.entries.map fun option => lower option.1 := by
    rw [S3SecretBuilder.structFields, List.map_map]
    apply List.map_congr_left
    exact fun option _ => lower_lower option.1
  rw [lowered]
  exact options.distinct

/-- The options are read back from what was remembered. -/
theorem optionsOfStruct_structFields (options : Options V) :
    (optionsOfStruct values (values.struct (S3SecretBuilder.structFields options))).entries =
      S3SecretBuilder.structFields options := by
  have zipped : ((S3SecretBuilder.structFields options).map Prod.fst).zip
      ((S3SecretBuilder.structFields options).map Prod.snd) =
        S3SecretBuilder.structFields options := by
    rw [List.zip_map', List.map_id']
  rw [optionsOfStruct, values.structNames_struct, values.structChildren_struct, zipped]
  have entries := @Options.entries_foldl_set V .empty (S3SecretBuilder.structFields options)
    (distinct_structFields options)
  exact entries

/-! ## One option -/

namespace S3SecretBuilder

/-- The entries of one builder over those of another. -/
def overlay (change base : S3SecretBuilder V) : S3SecretBuilder V where
  secret := { base.secret with
    secretMap := fun key => (change.secret.secretMap key).or (base.secret.secretMap key)
    redactKeys := change.secret.redactKeys ∪ base.secret.redactKeys }
  refresh := change.refresh || base.refresh

def blank : S3SecretBuilder V where
  secret := { scope := [], type := [], provider := [], name := [] }

@[simp]
theorem overlay_blank (base : S3SecretBuilder V) : overlay blank base = base := by
  simp [overlay, blank]

theorem overlay_set (change base : S3SecretBuilder V) (key : Text) (value : V) :
    overlay (change.set key value) base = (overlay change base).set key value := by
  simp only [overlay, set, KeyValueSecret.set]
  congr 2
  funext other
  by_cases same : other = key
  · subst same
    simp
  · simp [same]

/-- With a key that is not shown. -/
def redact (builder : S3SecretBuilder V) (key : Text) : S3SecretBuilder V :=
  { builder with secret :=
    { builder.secret with redactKeys := insert key builder.secret.redactKeys } }

theorem overlay_redact (change base : S3SecretBuilder V) (key : Text) :
    overlay (change.redact key) base = (overlay change base).redact key := by
  simp only [overlay, redact, Finset.insert_union]

theorem setBooleanOption_overlay (base : S3SecretBuilder V) (name : Text) (value : V) :
    base.setBooleanOption values name value =
      (blank.setBooleanOption values name value).map fun change => overlay change base := by
  simp only [setBooleanOption]
  split
  · rfl
  · cases values.getBoolean value with
    | error error => rfl
    | ok boolean =>
        change _ = Except.ok (overlay (blank.set name _) base)
        rw [overlay_set, overlay_blank]
        rfl

theorem setRefresh_overlay {base : S3SecretBuilder V} (value : V) (first : base.refresh = false) :
    setRefresh values input base value =
      (setRefresh values input blank value).map fun change => overlay change base := by
  have untouched : (blank : S3SecretBuilder V).refresh = false := rfl
  simp only [setRefresh, first, untouched, Bool.false_eq_true, if_false]
  cases values.getString value with
  | error error => rfl
  | ok text =>
      change _ = Except.ok (overlay ((S3SecretBuilder.set _ _ _).set _ _) base)
      have flagged : overlay { blank with refresh := lower text == "auto".toList } base =
          { base with refresh := lower text == "auto".toList } := by
        have same := overlay_blank base
        simp only [overlay, first, Bool.or_false] at same ⊢
        exact congrArg (fun builder : S3SecretBuilder V =>
          { builder with refresh := lower text == "auto".toList }) same
      rw [overlay_set, overlay_set, flagged]
      rfl

/-- The end of the cascade: the options of some types only. -/
theorem tryApplySecretOption_overlay (base : S3SecretBuilder V) (name : Text) (value : V) :
    (match S3Provider.tryApplySecretOption values input name value base.secret with
      | some secret => pure { base with secret }
      | none => throw (.invalidInput ("Unknown named parameter passed to CreateSecretFunctionInternal: " ++
          String.ofList name)) :
        Except ErrorData (S3SecretBuilder V)) =
      (match S3Provider.tryApplySecretOption values input name value
          (blank : S3SecretBuilder V).secret with
        | some secret => pure { (blank : S3SecretBuilder V) with secret }
        | none => throw (.invalidInput ("Unknown named parameter passed to CreateSecretFunctionInternal: " ++
          String.ofList name)) :
          Except ErrorData (S3SecretBuilder V)).map fun change => overlay change base := by
  simp only [S3Provider.tryApplySecretOption]
  by_cases account : name = "account_id".toList ∧ input.type = "r2".toList
  · simp only [if_pos account]
    change _ = Except.ok (overlay blank base)
    rw [overlay_blank]
    rfl
  · simp only [if_neg account]
    by_cases token : name = "bearer_token".toList ∧ input.type = "gcs".toList
    · simp only [if_pos token]
      change _ = Except.ok (overlay ((blank.set "bearer_token".toList _).redact _) base)
      rw [overlay_redact, overlay_set, overlay_blank]
      rfl
    · simp only [if_neg token]
      rfl

/-- What an option does to a builder is what it does to an empty one. -/
theorem applyOption_overlay (base : S3SecretBuilder V) {name : Text} (value : V)
    (notInfo : name ≠ refreshInfoKey) (first : name = refreshKey → base.refresh = false) :
    base.applyOption values input name value =
      (blank.applyOption values input name value).map fun change => overlay change base := by
  simp only [applyOption]
  split
  · change _ = Except.ok (overlay (blank.set name value) base)
    rw [overlay_set, overlay_blank]
    rfl
  · split
    · change _ = Except.ok (overlay (blank.set name _) base)
      rw [overlay_set, overlay_blank]
      rfl
    · split
      · change _ = Except.ok (overlay (blank.set name _) base)
        rw [overlay_set, overlay_blank]
        rfl
      · split
        · exact setBooleanOption_overlay base name value
        · split
          · rename_i isRefresh
            exact setRefresh_overlay value (first isRefresh)
          · split
            · contradiction
            · exact tryApplySecretOption_overlay base name value

/-! ## What an option changes -/

theorem applyOption_refresh (builder : S3SecretBuilder V) (value : V) :
    builder.applyOption values input refreshKey value = setRefresh values input builder value := by
  have notPlain : refreshKey ∉ plainOptions := by decide
  have notText : refreshKey ∉ textOptions := by decide
  have notStyle : refreshKey ≠ "url_style".toList := by decide
  have notBoolean : refreshKey ∉ booleanOptions := by decide
  rw [applyOption, if_neg notPlain, if_neg notText, if_neg notStyle, if_neg notBoolean]
  exact if_pos rfl

theorem applyOption_refreshInfo (builder : S3SecretBuilder V) (value : V) :
    builder.applyOption values input refreshInfoKey value =
      builder.setRefreshInfo values value := by
  have notPlain : refreshInfoKey ∉ plainOptions := by decide
  have notText : refreshInfoKey ∉ textOptions := by decide
  have notStyle : refreshInfoKey ≠ "url_style".toList := by decide
  have notBoolean : refreshInfoKey ∉ booleanOptions := by decide
  have notRefresh : refreshInfoKey ≠ "refresh".toList := by decide
  rw [applyOption, if_neg notPlain, if_neg notText, if_neg notStyle, if_neg notBoolean,
    if_neg notRefresh]
  exact if_pos rfl

variable (values input) in
/-- What an option makes of an empty builder. -/
def change (option : Text × V) : Except ErrorData (S3SecretBuilder V) :=
  blank.applyOption values input (lower option.1) option.2

/-- An empty builder gets no entries but those of the option. -/
structure Owns (name : Text) (builder : S3SecretBuilder V) : Prop where
  secretMap : ∀ key, builder.secret.secretMap key ≠ none →
    key = name ∨ name = refreshKey ∧ key = refreshInfoKey
  refresh : builder.refresh = true → name = refreshKey

theorem owns_blank (name : Text) : Owns name (blank : S3SecretBuilder V) where
  secretMap _ written := absurd rfl written
  refresh flagged := by cases flagged

theorem owns_set {builder : S3SecretBuilder V} {name key : Text} (owns : Owns name builder)
    (own : key = name ∨ name = refreshKey ∧ key = refreshInfoKey) (value : V) :
    Owns name (builder.set key value) where
  secretMap other written := by
    by_cases same : other = key
    · rw [same]
      exact own
    · apply owns.secretMap other
      simpa [set, KeyValueSecret.set, same] using written
  refresh := owns.refresh

theorem owns_of_setBooleanOption {name : Text} {value : V} {changed : S3SecretBuilder V}
    (accepted : blank.setBooleanOption values name value = .ok changed) : Owns name changed := by
  simp only [setBooleanOption] at accepted
  split at accepted
  · cases accepted
  · cases read : values.getBoolean value with
    | error error =>
        rw [read] at accepted
        cases accepted
    | ok boolean =>
        rw [read] at accepted
        cases accepted
        exact owns_set (owns_blank name) (Or.inl rfl) _

/-- An accepted `refresh`. -/
theorem setRefresh_eq_ok {base changed : S3SecretBuilder V} {value : V}
    (accepted : setRefresh values input base value = .ok changed) :
    base.refresh = false ∧ ∃ text, values.getString value = .ok text ∧
      changed = ((({ base with refresh := lower text == "auto".toList } : S3SecretBuilder V).set
        "refresh".toList (values.varchar "auto".toList)).set "refresh_info".toList
          (values.struct (structFields input.options))) := by
  simp only [setRefresh] at accepted
  split at accepted
  · cases accepted
  · rename_i first
    constructor
    · exact Bool.eq_false_of_not_eq_true first
    · cases read : values.getString value with
      | error error =>
          rw [read] at accepted
          cases accepted
      | ok text =>
          rw [read] at accepted
          cases accepted
          exact ⟨text, rfl, rfl⟩

theorem owns_of_setRefresh {value : V} {changed : S3SecretBuilder V}
    (accepted : setRefresh values input blank value = .ok changed) : Owns refreshKey changed := by
  obtain ⟨_, text, _, rfl⟩ := setRefresh_eq_ok accepted
  have flagged : Owns refreshKey
      ({ blank with refresh := lower text == "auto".toList } : S3SecretBuilder V) :=
    { secretMap := fun _ written => absurd rfl written, refresh := fun _ => rfl }
  exact owns_set (owns_set flagged (Or.inl rfl) _) (Or.inr ⟨rfl, rfl⟩) _

theorem owns_of_tryApplySecretOption {name : Text} {value : V} {secret : KeyValueSecret V}
    (accepted : S3Provider.tryApplySecretOption values input name value
      (blank : S3SecretBuilder V).secret = some secret) :
    Owns name ({ (blank : S3SecretBuilder V) with secret } : S3SecretBuilder V) := by
  simp only [S3Provider.tryApplySecretOption] at accepted
  split at accepted
  · cases accepted
    exact owns_blank name
  · split at accepted
    · rename_i token
      cases accepted
      have written := owns_set (owns_blank name) (Or.inl token.1.symm)
        (values.varchar (values.toText value))
      exact { secretMap := written.secretMap, refresh := written.refresh }
    · cases accepted

/-- An accepted option changes its own entries only. -/
theorem owns_of_change {option : Text × V} {changed : S3SecretBuilder V}
    (notInfo : lower option.1 ≠ refreshInfoKey)
    (accepted : change values input option = .ok changed) : Owns (lower option.1) changed := by
  generalize named : lower option.1 = name at notInfo
  simp only [change, named, applyOption] at accepted
  have own : name = name ∨ name = refreshKey ∧ name = refreshInfoKey := Or.inl rfl
  split at accepted
  · cases accepted
    exact owns_set (owns_blank name) own _
  · split at accepted
    · cases accepted
      exact owns_set (owns_blank name) own _
    · split at accepted
      · cases accepted
        exact owns_set (owns_blank name) own _
      · split at accepted
        · exact owns_of_setBooleanOption accepted
        · split at accepted
          · rename_i isRefresh
            rw [isRefresh]
            exact owns_of_setRefresh accepted
          · split at accepted
            · contradiction
            · split at accepted
              · rename_i applied
                cases accepted
                exact owns_of_tryApplySecretOption applied
              · cases accepted

/-! ## Several options -/

variable (values input) in
/-- What an accepted option makes of an empty builder. -/
def changed (option : Text × V) : S3SecretBuilder V :=
  match change values input option with
  | .ok builder => builder
  | .error _ => blank

variable (values input) in
def Accepted (option : Text × V) : Prop :=
  change values input option = .ok (changed values input option)

theorem accepted_iff {option : Text × V} :
    Accepted values input option ↔ ∃ builder, change values input option = .ok builder := by
  rw [Accepted, changed]
  constructor
  · exact fun accepted => ⟨_, accepted⟩
  · rintro ⟨builder, accepted⟩
    rw [accepted]

variable (values input) in
/-- A builder with the changes of options. -/
def withChanges (base : S3SecretBuilder V) (entries : List (Text × V)) : S3SecretBuilder V :=
  entries.foldl (fun builder option => overlay (changed values input option) builder) base

/-- Options that are applied once and that are not `refresh_info` change the builder one
by one. -/
theorem applyOptions_eq_ok_iff {entries : List (Text × V)} {base result : S3SecretBuilder V}
    (distinct : (entries.map fun option => lower option.1).Nodup)
    (noInfo : ∀ option ∈ entries, lower option.1 ≠ refreshInfoKey)
    (first : ∀ option ∈ entries, lower option.1 = refreshKey → base.refresh = false) :
    applyOptions values input base entries = .ok result ↔
      (∀ option ∈ entries, Accepted values input option) ∧
        result = withChanges values input base entries := by
  induction entries generalizing base with
  | nil =>
      constructor
      · intro applied
        cases applied
        exact ⟨fun option member => absurd member List.not_mem_nil, rfl⟩
      · rintro ⟨_, rfl⟩
        rfl
  | cons option entries inductionHypothesis =>
      have applied : base.applyOption values input (lower option.1) option.2 = _ :=
        applyOption_overlay base option.2 (noInfo option List.mem_cons_self)
          (first option List.mem_cons_self)
      rw [applyOptions, applied]
      rw [List.map_cons, List.nodup_cons] at distinct
      change ((change values input option).map _ >>= _) = _ ↔ _
      cases accepted : change values input option with
      | error error =>
          constructor
          · intro stopped
            cases stopped
          · rintro ⟨all, _⟩
            have isAccepted := all option List.mem_cons_self
            rw [Accepted, accepted] at isAccepted
            cases isAccepted
      | ok builder =>
          have isChanged : changed values input option = builder := by
            rw [changed, accepted]
          have isAccepted : Accepted values input option := accepted_iff.mpr ⟨builder, accepted⟩
          have later : ∀ other ∈ entries, lower other.1 = refreshKey →
              (overlay builder base).refresh = false := by
            intro other member isRefresh
            have untouched := first other (List.mem_cons_of_mem _ member) isRefresh
            cases flagged : builder.refresh with
            | false => simp only [overlay, flagged, untouched, Bool.or_false]
            | true =>
                have sameName := (owns_of_change (noInfo option List.mem_cons_self)
                  accepted).refresh flagged
                have again : lower other.1 ∈ entries.map fun option => lower option.1 :=
                  List.mem_map.mpr ⟨other, member, rfl⟩
                rw [isRefresh, ← sameName] at again
                exact absurd again distinct.1
          have rest : applyOptions values input (overlay builder base) entries = .ok result ↔ _ :=
            inductionHypothesis distinct.2
              (fun other member => noInfo other (List.mem_cons_of_mem _ member)) later
          change applyOptions values input (overlay builder base) entries = _ ↔ _
          rw [rest, List.forall_mem_cons, withChanges, withChanges, List.foldl_cons, isChanged]
          constructor
          · rintro ⟨all, rfl⟩
            exact ⟨⟨isAccepted, all⟩, rfl⟩
          · rintro ⟨⟨_, all⟩, rfl⟩
            exact ⟨all, rfl⟩

/-- Builders that write different entries are laid over a third in either order. -/
theorem overlay_comm {first second : S3SecretBuilder V} (base : S3SecretBuilder V)
    (apart : ∀ key, first.secret.secretMap key = none ∨ second.secret.secretMap key = none) :
    overlay first (overlay second base) = overlay second (overlay first base) := by
  have entries : ∀ key, (first.secret.secretMap key).or
      ((second.secret.secretMap key).or (base.secret.secretMap key)) =
        (second.secret.secretMap key).or
          ((first.secret.secretMap key).or (base.secret.secretMap key)) := by
    intro key
    rcases apart key with free | free <;> simp [free]
  simp only [overlay, entries, Finset.union_left_comm, Bool.or_left_comm]

theorem apart_of_ne {option other : Text × V}
    (accepted : Accepted values input option) (acceptedOther : Accepted values input other)
    (notInfo : lower option.1 ≠ refreshInfoKey) (notInfoOther : lower other.1 ≠ refreshInfoKey)
    (different : lower option.1 ≠ lower other.1) (key : Text) :
    (changed values input option).secret.secretMap key = none ∨
      (changed values input other).secret.secretMap key = none := by
  by_contra written
  rw [not_or] at written
  have own := (owns_of_change notInfo accepted).secretMap key written.1
  have ownOther := (owns_of_change notInfoOther acceptedOther).secretMap key written.2
  rcases own with own | ⟨isRefresh, isInfo⟩
  · rcases ownOther with ownOther | ⟨_, isInfo⟩
    · exact different (own.symm.trans ownOther)
    · exact notInfo (own.symm.trans isInfo)
  · rcases ownOther with ownOther | ⟨isRefreshOther, _⟩
    · exact notInfoOther (ownOther.symm.trans isInfo)
    · exact different (isRefresh.trans isRefreshOther.symm)

/-- The order of the options does not matter. -/
theorem withChanges_perm {entries reordered : List (Text × V)} (base : S3SecretBuilder V)
    (perm : entries.Perm reordered)
    (distinct : (entries.map fun option => lower option.1).Nodup)
    (noInfo : ∀ option ∈ entries, lower option.1 ≠ refreshInfoKey)
    (accepted : ∀ option ∈ entries, Accepted values input option) :
    withChanges values input base entries = withChanges values input base reordered := by
  apply perm.foldl_eq'
  intro option member other memberOther builder
  by_cases same : option = other
  · rw [same]
  · apply overlay_comm
    apply apart_of_ne (accepted other memberOther) (accepted option member)
      (noInfo other memberOther) (noInfo option member)
    intro sameName
    exact same (List.inj_on_of_nodup_map distinct member memberOther sameName.symm)

end S3SecretBuilder

end Httpfs.S3.Secret
