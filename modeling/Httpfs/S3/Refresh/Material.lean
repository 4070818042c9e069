import Httpfs.S3.Isolation
import Httpfs.S3.Refresh.Program

/-!
# The material of a refresh

What a call holds, what a store has for it, and what a reload makes of the two.
The region of a redirect survives a reload; comparing with it in place tells new
material from old.
-/

namespace Httpfs.S3.Refresh

open Http Text
open Httpfs.S3.Session

/-! ## Material of a store -/

theorem SecretStore.readS3AuthParams_finalized {store : SecretStore} {decode : Text → Text}
    {path : Text} {read : S3AuthParams} (reads : store.readS3AuthParams decode path = .ok read) :
    finalizeAuthParams read = .ok read := by
  rcases bind_eq_ok_iff.mp reads with ⟨⟨parsedUrl, resolved⟩, resolves, ends⟩
  cases ends
  rcases resolve_eq_ok_iff.mp resolves with ⟨first, unfinished, -, -, finalizes, -⟩
  exact finalizeAuthParams_idempotent finalizes

/-- The parameters of a store for a call, with the region that the call keeps. -/
def RefreshCall.place (call : RefreshCall) (read : S3AuthParams) : Except ErrorData S3AuthParams :=
  if call.preserveRegion && !call.material.authParams.region.isEmpty then
    read.setRegion call.material.authParams.region
  else pure read

/-- Leaving out a region that is already there makes no difference. -/
theorem RefreshCall.reloadAuthParams_eq (call : RefreshCall) {read : S3AuthParams}
    (finalized : finalizeAuthParams read = .ok read) :
    call.reloadAuthParams (.ok read) = call.place read := by
  simp only [reloadAuthParams, bind, Except.bind, place]
  cases keeps : call.preserveRegion && !call.material.authParams.region.isEmpty with
  | false => rfl
  | true =>
      by_cases same : read.region = call.material.authParams.region
      · have own : read.setRegion call.material.authParams.region = .ok read := by
          rw [← same]
          exact finalized
        simp only [same, ne_eq, not_true_eq_false, decide_false, Bool.and_false, own]
        rfl
      · simp [same]

/-- The material is what the store has for the call, but for a region that the
call keeps. -/
structure Renewed (decode : Text → Text) (store : SecretStore) (call : RefreshCall)
    (renewed : S3AuthMaterial) : Prop where
  authParams : ∃ read, store.readS3AuthParams decode call.path = .ok read ∧
    call.place read = .ok renewed.authParams
  httpParams : store.readRefreshableHTTPParams call.path = .ok (.ofParams renewed.httpParams)

/-- The call holds what the store has, with a redirect to another region at most. -/
structure Holds (decode : Text → Text) (store : SecretStore) (call : RefreshCall) : Prop where
  authParams : ∃ read, store.readS3AuthParams decode call.path = .ok read ∧
    (call.material.authParams = read ∨ call.preserveRegion = true ∧
      ∃ region, region ≠ [] ∧ read.setRegion region = .ok call.material.authParams)
  httpParams : ∃ read, store.readRefreshableHTTPParams call.path = .ok read ∧
    read.same (.ofParams call.material.httpParams) = true

/-- What the store has for the call is readable and not what the call holds. -/
def Differs (decode : Text → Text) (store : SecretStore) (call : RefreshCall) : Prop :=
  ∃ renewed, Renewed decode store call renewed ∧
    ¬ (renewed.authParams = call.material.authParams ∧
      (S3RefreshableHTTPParams.ofParams renewed.httpParams).same
        (.ofParams call.material.httpParams) = true)

section Calls

variable {decode : Text → Text} {store : SecretStore} {call : RefreshCall}

/-- A reload finds the authentication parameters that the call holds. -/
theorem Holds.reloadAuthParams (holds : Holds decode store call) :
    call.reloadAuthParams (store.readS3AuthParams decode call.path) =
      .ok call.material.authParams := by
  rcases holds.authParams with ⟨read, reads, holdsRead⟩
  have finalized := SecretStore.readS3AuthParams_finalized reads
  rw [reads, call.reloadAuthParams_eq finalized, RefreshCall.place]
  rcases holdsRead with same | ⟨keeps, region, named, sets⟩
  · rw [same]
    split
    · exact finalized
    · rfl
  · have isRegion := ((S3AuthParams.setRegion_spec sets).2 named).1
    rw [keeps, isRegion, Bool.true_and, if_pos (by simpa using named), sets]

theorem compareMaterial_eq_none {reloadedAuthParams : S3AuthParams}
    {reloadedHttpParams : S3RefreshableHTTPParams} :
    call.compareMaterial reloadedAuthParams reloadedHttpParams = none ↔
      reloadedAuthParams = call.material.authParams ∧
        reloadedHttpParams.same (.ofParams call.material.httpParams) = true := by
  rw [RefreshCall.compareMaterial]
  split
  · rename_i same
    simpa using same
  · rename_i different
    simpa using different

/-- From a store with something new, a reload returns it. -/
theorem Differs.reload (differs : Differs decode store call) :
    ∃ reloadedAuthParams,
      call.reloadAuthParams (store.readS3AuthParams decode call.path) = .ok reloadedAuthParams ∧
      ∃ reloadedHttpParams, store.readRefreshableHTTPParams call.path = .ok reloadedHttpParams ∧
        call.compareMaterial reloadedAuthParams reloadedHttpParams ≠ none ∧
        ∀ reloaded, call.compareMaterial reloadedAuthParams reloadedHttpParams = some reloaded →
          Renewed decode store call reloaded := by
  rcases differs with ⟨renewed, ⟨⟨read, reads, places⟩, readsHttp⟩, different⟩
  have finalized := SecretStore.readS3AuthParams_finalized reads
  refine ⟨renewed.authParams, ?_, _, readsHttp, ?_, ?_⟩
  · rw [reads, call.reloadAuthParams_eq finalized, places]
  · rw [ne_eq, compareMaterial_eq_none]
    exact different
  · intro reloaded compares
    rw [RefreshCall.compareMaterial] at compares
    split at compares
    · contradiction
    · cases compares
      refine ⟨⟨read, reads, places⟩, ?_⟩
      rw [S3RefreshableHTTPParams.ofParams_apply]
      exact readsHttp

end Calls

end Httpfs.S3.Refresh
