import Httpfs.S3.Secret.Options

/-!
# Making a secret again

With `refresh 'auto'` a secret remembers the options it was made from, with names in lower
case.  Applied again, in whatever order they are enumerated, they change the same entries;
only what is remembered of them may have another order.
-/

namespace Httpfs.S3.Secret

open Text

variable {V : Type} {values : Values V} {input : CreateSecretInput V}

theorem KeyValueSecret.secretMap_set (secret : KeyValueSecret V) (key : Text) (value : V) :
    (secret.set key value).secretMap key = some value := by
  simp only [set, Function.update_self]

namespace S3SecretBuilder

/-! ## Two ways to ask for a refresh -/

/-- After an option that asks for a refresh there is no other one. -/
theorem applyOption_of_refreshing {builder next : S3SecretBuilder V} {name : Text} {value : V}
    (refreshing : builder.refresh = true)
    (applied : builder.applyOption values input name value = .ok next) :
    name ≠ refreshKey ∧ name ≠ refreshInfoKey ∧ next.refresh = true := by
  have notRefresh : name ≠ refreshKey := by
    rintro rfl
    rw [applyOption_refresh, setRefresh, refreshing] at applied
    cases applied
  have notInfo : name ≠ refreshInfoKey := by
    rintro rfl
    rw [applyOption_refreshInfo, setRefreshInfo, refreshing] at applied
    cases applied
  rw [applyOption_overlay builder value notInfo fun isRefresh => absurd isRefresh notRefresh]
    at applied
  cases accepted : blank.applyOption values input name value with
  | error error =>
      rw [accepted] at applied
      cases applied
  | ok changed =>
      rw [accepted] at applied
      cases applied
      exact ⟨notRefresh, notInfo, by simp only [overlay, refreshing, Bool.or_true]⟩

theorem applyOptions_of_refreshing {entries : List (Text × V)} {builder result : S3SecretBuilder V}
    (refreshing : builder.refresh = true)
    (applied : applyOptions values input builder entries = .ok result) :
    ∀ option ∈ entries, lower option.1 ≠ refreshKey ∧ lower option.1 ≠ refreshInfoKey := by
  induction entries generalizing builder with
  | nil => exact fun option member => absurd member List.not_mem_nil
  | cons option entries inductionHypothesis =>
      rw [applyOptions] at applied
      cases step : builder.applyOption values input (lower option.1) option.2 with
      | error error =>
          rw [step] at applied
          cases applied
      | ok next =>
          rw [step] at applied
          have kept := applyOption_of_refreshing refreshing step
          rw [List.forall_mem_cons]
          exact ⟨⟨kept.1, kept.2.1⟩, inductionHypothesis kept.2.2 applied⟩

/-- An option that asks for a refresh by itself. -/
structure IsAuto (values : Values V) (option : Text × V) : Prop where
  name : lower option.1 = refreshKey
  value : ∃ text, values.getString option.2 = .ok text ∧ lower text = "auto".toList

theorem refreshing_of_auto {builder next : S3SecretBuilder V} {option : Text × V}
    (auto : IsAuto values option)
    (applied : builder.applyOption values input (lower option.1) option.2 = .ok next) :
    next.refresh = true := by
  obtain ⟨text, read, isAuto⟩ := auto.value
  rw [auto.name, applyOption_refresh] at applied
  obtain ⟨_, text', read', rfl⟩ := setRefresh_eq_ok applied
  cases read.symm.trans read'
  simp only [set, isAuto, beq_self_eq_true]

theorem refreshing_of_refreshInfo {builder next : S3SecretBuilder V} {value : V}
    (applied : builder.applyOption values input refreshInfoKey value = .ok next) :
    next.refresh = true := by
  rw [applyOption_refreshInfo, setRefreshInfo] at applied
  split at applied
  · cases applied
  · cases built : mapToStruct values value with
    | error error =>
        rw [built] at applied
        cases applied
    | ok info =>
        rw [built] at applied
        cases applied
        rfl

/-- Options with `refresh 'auto'` that are accepted do not include `refresh_info`. -/
theorem ne_refreshInfo_of_auto {entries : List (Text × V)} {builder result : S3SecretBuilder V}
    {auto : Text × V} (isAuto : IsAuto values auto) (member : auto ∈ entries)
    (applied : applyOptions values input builder entries = .ok result) :
    ∀ option ∈ entries, lower option.1 ≠ refreshInfoKey := by
  induction entries generalizing builder with
  | nil => exact fun option member => absurd member List.not_mem_nil
  | cons option entries inductionHypothesis =>
      rw [applyOptions] at applied
      cases step : builder.applyOption values input (lower option.1) option.2 with
      | error error =>
          rw [step] at applied
          cases applied
      | ok next =>
          rw [step] at applied
          rw [List.forall_mem_cons]
          rcases List.mem_cons.mp member with rfl | later
          · have rest := applyOptions_of_refreshing (refreshing_of_auto isAuto step) applied
            have different : refreshKey ≠ refreshInfoKey := by decide
            rw [isAuto.name]
            exact ⟨different, fun other memberOther => (rest other memberOther).2⟩
          · constructor
            · intro isInfo
              rw [isInfo] at step
              have rest := applyOptions_of_refreshing (refreshing_of_refreshInfo step) applied
              exact (rest auto later).1 isAuto.name
            · exact inductionHypothesis later applied

/-! ## The same options, enumerated otherwise -/

/-- The same request, with the options as they are remembered, in any order. -/
structure Replays (input replay : CreateSecretInput V) : Prop where
  type : replay.type = input.type
  provider : replay.provider = input.provider
  name : replay.name = input.name
  options : replay.options.entries.Perm (structFields input.options)

theorem Replays.find?_eq {replay : CreateSecretInput V} (replays : Replays input replay)
    (name : Text) : replay.options.find? name = input.options.find? name := by
  apply Option.ext
  intro value
  rw [Options.find?_eq_some_iff, Options.find?_eq_some_iff]
  constructor
  · rintro ⟨option, member, same, rfl⟩
    obtain ⟨original, memberOriginal, rfl⟩ :=
      List.mem_map.mp (replays.options.mem_iff.mp member)
    exact ⟨original, memberOriginal, (lower_lower original.1).symm.trans same, rfl⟩
  · rintro ⟨option, member, same, rfl⟩
    have kept : (lower option.1, option.2) ∈ replay.options.entries :=
      replays.options.mem_iff.mpr (List.mem_map.mpr ⟨option, member, rfl⟩)
    exact ⟨_, kept, (lower_lower option.1).trans same, rfl⟩

/-- A builder without what it remembers of the options. -/
def conceal (builder : S3SecretBuilder V) : S3SecretBuilder V :=
  { builder with secret :=
    { builder.secret with
      secretMap := Function.update builder.secret.secretMap refreshInfoKey none } }

theorem conceal_set_refreshInfo (builder : S3SecretBuilder V) (value : V) :
    conceal (builder.set refreshInfoKey value) = conceal builder := by
  simp only [conceal, set, KeyValueSecret.set, Function.update_idem]

theorem conceal_overlay (change base : S3SecretBuilder V) :
    conceal (overlay change base) = overlay (conceal change) (conceal base) := by
  simp only [conceal, overlay]
  congr 2
  funext key
  by_cases isInfo : key = refreshInfoKey
  · rw [isInfo]
    simp
  · simp [isInfo]

theorem conceal_withChanges (base : S3SecretBuilder V) (entries : List (Text × V)) :
    conceal (withChanges values input base entries) =
      entries.foldl (fun builder option =>
        overlay (conceal (changed values input option)) builder) (conceal base) := by
  induction entries generalizing base with
  | nil => rfl
  | cons option entries inductionHypothesis =>
      rw [withChanges, List.foldl_cons, List.foldl_cons, ← conceal_overlay]
      exact inductionHypothesis _

/-- An option does the same in a replay, but for what `refresh` remembers. -/
theorem Replays.change_eq {replay : CreateSecretInput V} (replays : Replays input replay)
    (option : Text × V) :
    (change values replay (lower option.1, option.2)).map conceal =
      (change values input option).map conceal := by
  simp only [change, lower_lower]
  generalize lower option.1 = name
  by_cases isRefresh : name = refreshKey
  · rw [isRefresh, applyOption_refresh, applyOption_refresh]
    have untouched : (blank : S3SecretBuilder V).refresh = false := rfl
    simp only [setRefresh, untouched, Bool.false_eq_true, if_false]
    cases values.getString option.2 with
    | error error => rfl
    | ok text =>
        change Except.ok (conceal (S3SecretBuilder.set _ refreshInfoKey _)) =
          Except.ok (conceal (S3SecretBuilder.set _ refreshInfoKey _))
        rw [conceal_set_refreshInfo, conceal_set_refreshInfo]
  · have notRefresh : name ≠ "refresh".toList := isRefresh
    simp only [applyOption, if_neg notRefresh, S3Provider.tryApplySecretOption, replays.type]

theorem Replays.conceal_changed {replay : CreateSecretInput V} (replays : Replays input replay)
    (option : Text × V) :
    conceal (changed values replay (lower option.1, option.2)) =
      conceal (changed values input option) := by
  have same : (change values replay (lower option.1, option.2)).map conceal = _ :=
    replays.change_eq option
  simp only [changed]
  cases first : change values replay (lower option.1, option.2) with
  | error error =>
      cases second : change values input option with
      | error error' => rfl
      | ok builder =>
          rw [first, second] at same
          cases same
  | ok builder =>
      cases second : change values input option with
      | error error' =>
          rw [first, second] at same
          cases same
      | ok builder' =>
          rw [first, second] at same
          exact Except.ok.inj same

theorem Replays.accepted_iff {replay : CreateSecretInput V} (replays : Replays input replay)
    (option : Text × V) :
    Accepted values replay (lower option.1, option.2) ↔ Accepted values input option := by
  rw [S3SecretBuilder.accepted_iff, S3SecretBuilder.accepted_iff]
  have same : (change values replay (lower option.1, option.2)).map conceal = _ :=
    replays.change_eq option
  constructor
  · rintro ⟨builder, accepted⟩
    rw [accepted] at same
    cases second : change values input option with
    | error error =>
        rw [second] at same
        cases same
    | ok builder' => exact ⟨builder', rfl⟩
  · rintro ⟨builder, accepted⟩
    rw [accepted] at same
    cases first : change values replay (lower option.1, option.2) with
    | error error =>
        rw [first] at same
        cases same
    | ok builder' => exact ⟨builder', rfl⟩

/-! ## The secret that is made -/

variable (values input) in
/-- What is kept of the secret while options are applied. -/
theorem withChanges_described (base : S3SecretBuilder V) (entries : List (Text × V)) :
    (withChanges values input base entries).secret.scope = base.secret.scope ∧
      (withChanges values input base entries).secret.type = base.secret.type ∧
      (withChanges values input base entries).secret.provider = base.secret.provider ∧
      (withChanges values input base entries).secret.name = base.secret.name := by
  induction entries generalizing base with
  | nil => exact ⟨rfl, rfl, rfl, rfl⟩
  | cons option entries inductionHypothesis =>
      exact inductionHypothesis (overlay (changed values input option) base)

/-- An entry that options write with one value only. -/
theorem withChanges_secretMap {base : S3SecretBuilder V} {entries : List (Text × V)} {key : Text}
    {value : V}
    (only : ∀ option ∈ entries, (changed values input option).secret.secretMap key = none ∨
      (changed values input option).secret.secretMap key = some value)
    (written : base.secret.secretMap key = some value ∨ ∃ option ∈ entries,
      (changed values input option).secret.secretMap key = some value) :
    (withChanges values input base entries).secret.secretMap key = some value := by
  induction entries generalizing base with
  | nil =>
      rcases written with written | ⟨option, member, _⟩
      · exact written
      · exact absurd member List.not_mem_nil
  | cons option entries inductionHypothesis =>
      rw [List.forall_mem_cons] at only
      change (withChanges values input (overlay (changed values input option) base)
        entries).secret.secretMap key = some value
      apply inductionHypothesis only.2
      rcases only.1 with free | own
      · rcases written with written | ⟨other, member, written⟩
        · left
          simpa [overlay, free] using written
        · rcases List.mem_cons.mp member with rfl | later
          · rw [free] at written
            cases written
          · exact Or.inr ⟨other, later, written⟩
      · left
        simp [overlay, own]

/-- What is remembered of the options. -/
theorem withChanges_refreshInfo (base : S3SecretBuilder V) {entries : List (Text × V)}
    {refresh : Text × V} (member : refresh ∈ entries) (isRefresh : lower refresh.1 = refreshKey)
    (noInfo : ∀ option ∈ entries, lower option.1 ≠ refreshInfoKey)
    (accepted : ∀ option ∈ entries, Accepted values input option) :
    (withChanges values input base entries).secret.secretMap refreshInfoKey =
      some (values.struct (structFields input.options)) := by
  have ofRefresh : ∀ option ∈ entries, lower option.1 = refreshKey →
      (changed values input option).secret.secretMap refreshInfoKey =
        some (values.struct (structFields input.options)) := by
    intro option member isRefresh
    have applied := accepted option member
    rw [Accepted, change, isRefresh, applyOption_refresh] at applied
    obtain ⟨_, text, _, isChanged⟩ := setRefresh_eq_ok applied
    rw [isChanged]
    exact KeyValueSecret.secretMap_set _ refreshInfoKey _
  apply withChanges_secretMap
  · intro option member
    by_cases isRefresh : lower option.1 = refreshKey
    · exact Or.inr (ofRefresh option member isRefresh)
    · left
      by_contra written
      rcases (owns_of_change (noInfo option member) (accepted option member)).secretMap _ written
        with isInfo | ⟨isRefresh', _⟩
      · exact noInfo option member isInfo.symm
      · exact isRefresh isRefresh'
  · exact Or.inr ⟨refresh, member, ofRefresh refresh member isRefresh⟩

/-- A builder of a request, with its scope. -/
def described (input : CreateSecretInput V) (scope : List Text) : S3SecretBuilder V where
  secret := {
    scope
    type := input.type
    provider := input.provider
    name := input.name
    redactKeys := {"secret".toList, "session_token".toList} }

theorem ofInput_eq_ok {builder : S3SecretBuilder V} (built : ofInput input = .ok builder) :
    builder.secret.scope ≠ [] ∧ builder = described input builder.secret.scope := by
  rw [ofInput] at built
  split at built
  · rename_i noScope
    cases found : S3Provider.defaultSecretScope input.type with
    | error error =>
        rw [found] at built
        cases built
    | ok scope =>
        rw [found] at built
        cases built
        refine ⟨?_, rfl⟩
        simp only [S3Provider.defaultSecretScope] at found
        split at found
        · cases found
          exact List.cons_ne_nil _ _
        · split at found
          · cases found
            exact List.cons_ne_nil _ _
          · split at found
            · cases found
              exact List.cons_ne_nil _ _
            · split at found
              · cases found
                exact List.cons_ne_nil _ _
              · cases found
  · rename_i someScope
    cases built
    refine ⟨?_, rfl⟩
    intro noScope
    exact someScope (List.isEmpty_iff.mpr noScope)

theorem ofInput_of_scope (someScope : input.scope ≠ []) :
    ofInput input = .ok (described input input.scope) := by
  have notEmpty : ¬ input.scope.isEmpty = true := fun empty =>
    someScope (List.isEmpty_iff.mp empty)
  rw [ofInput, if_neg notEmpty]
  rfl

variable (values) in
/-- The builder before the options. -/
def withDefaults (input : CreateSecretInput V) (builder : S3SecretBuilder V) :
    S3SecretBuilder V :=
  { builder with secret := S3Provider.applySecretDefaults values input builder.secret }

variable (values input) in
theorem withDefaults_described (builder : S3SecretBuilder V) :
    (withDefaults values input builder).secret.scope = builder.secret.scope ∧
      (withDefaults values input builder).secret.type = builder.secret.type ∧
      (withDefaults values input builder).secret.provider = builder.secret.provider ∧
      (withDefaults values input builder).secret.name = builder.secret.name := by
  rw [withDefaults, S3Provider.applySecretDefaults]
  split
  · exact ⟨rfl, rfl, rfl, rfl⟩
  · cases input.options.find? "account_id".toList with
    | none => exact ⟨rfl, rfl, rfl, rfl⟩
    | some accountId => exact ⟨rfl, rfl, rfl, rfl⟩

end S3SecretBuilder

/-- The request has the option `refresh 'auto'`. -/
def AutoRefresh (values : Values V) (input : CreateSecretInput V) : Prop :=
  ∃ option ∈ input.options.entries, S3SecretBuilder.IsAuto values option

end Httpfs.S3.Secret
