import Httpfs.Http.HeaderMap
import Httpfs.Http.Params
import Httpfs.S3.Provider
import Httpfs.Text.Order

/-!
# Configured headers

The headers a user configures go with every request to S3.  They are refused if two
differ only by case, or if one is a header that HTTPFS sets itself.
-/

namespace Httpfs.S3

open Http Text

/-! ## Headers of HTTPFS -/

namespace HTTPFSOwnedS3Headers

def headers : List Text :=
  ["Host".toList, "Authorization".toList, "Content-Length".toList, "Content-Type".toList,
    "Content-MD5".toList, "Range".toList, "If-Match".toList, "x-amz-date".toList,
    "x-amz-content-sha256".toList, "x-amz-security-token".toList, "x-amz-request-payer".toList,
    "x-amz-server-side-encryption".toList, "x-amz-server-side-encryption-aws-kms-key-id".toList]

/-- The spelling of the source for a header name. -/
def find? (name : Text) : Option Text :=
  headers.find? fun header => lower header = lower name

def contains (name : Text) : Bool :=
  (find? name).isSome

def canonicalName (name : Text) : Text :=
  (find? name).getD []

theorem contains_iff {name : Text} :
    contains name = true ↔ ∃ header ∈ headers, lower header = lower name := by
  rw [contains, find?, List.find?_isSome]
  simp

end HTTPFSOwnedS3Headers

/-! ## Configured headers -/

/-- The order in which configured headers are looked at: without regard to case, and
among the spellings of one name as they are. -/
def headerKey (header : Text × Text) : Lex (Text × Text) :=
  toLex (lower header.1, header.1)

def sortHeaders (headers : List (Text × Text)) : List (Text × Text) :=
  headers.insertionSort fun left right => headerKey left ≤ headerKey right

/-- The loop over the sorted headers, behind the name of the header before. -/
def checkConfiguredHeaders : Option Text → List (Text × Text) → Except ErrorData Unit
  | _, [] => pure ()
  | previous, header :: rest =>
      match previous.filter fun name => lower name = lower header.1 with
      | some name =>
          throw (.invalidInput ("Configured S3 headers \"" ++ String.ofList name ++ "\" and \"" ++
            String.ofList header.1 ++ "\" differ only by case"))
      | none =>
          if HTTPFSOwnedS3Headers.contains header.1 then
            throw (.invalidInput ("Configured S3 header \"" ++ String.ofList header.1 ++
              "\" conflicts with HTTPFS-owned header \"" ++
              String.ofList (HTTPFSOwnedS3Headers.canonicalName header.1) ++ "\""))
          else checkConfiguredHeaders (some header.1) rest

def setHeaders (headers : HTTPHeaders) (values : List (Text × Text)) : HTTPHeaders :=
  values.foldl (fun headers header => headers.set header.1 header.2) headers

def createConfiguredS3Headers (extraHeaders : ExtraHeaders) (userAgent : Text) :
    Except ErrorData HTTPHeaders := do
  let sortedHeaders := sortHeaders extraHeaders.entries
  checkConfiguredHeaders none sortedHeaders
  let result := setHeaders .empty sortedHeaders
  pure (if userAgent.isEmpty then result else result.insert "User-Agent".toList userAgent)

/-! ## What is set -/

/-- Headers that are set one after the other are all that is new. -/
theorem mem_setHeaders {headers : HTTPHeaders} {values : List (Text × Text)}
    {header : Text × Text} (member : header ∈ (setHeaders headers values).entries) :
    header ∈ headers.entries ∧ (∀ value ∈ values, lower header.1 ≠ lower value.1) ∨
      ∃ value ∈ values, lower header.1 = lower value.1 ∧ header.2 = value.2 := by
  induction values generalizing headers with
  | nil => exact .inl ⟨member, fun _ impossible => absurd impossible List.not_mem_nil⟩
  | cons value values inductionHypothesis =>
      rcases inductionHypothesis member with ⟨before, apart⟩ | ⟨later, inLater, isLater⟩
      · rcases HTTPHeaders.mem_set before with ⟨kept, other⟩ | same
        · exact .inl ⟨kept, List.forall_mem_cons.mpr ⟨other, apart⟩⟩
        · exact .inr ⟨value, List.mem_cons_self, same⟩
      · exact .inr ⟨later, List.mem_cons_of_mem _ inLater, isLater⟩

theorem mem_names_setHeaders (headers : HTTPHeaders) (values : List (Text × Text)) (name : Text) :
    name ∈ (setHeaders headers values).names ↔
      name ∈ headers.names ∨ ∃ value ∈ values, name = lower value.1 := by
  induction values generalizing headers with
  | nil => simp [setHeaders]
  | cons value values inductionHypothesis =>
      change name ∈ (setHeaders (headers.set value.1 value.2) values).names ↔ _
      rw [inductionHypothesis, HTTPHeaders.names_set, HTTPHeaders.mem_names_insert,
        List.exists_mem_cons_iff, or_comm (a := name = lower value.1), or_assoc]

/-- A header that is set last under its name is there with its value. -/
theorem exists_mem_setHeaders {values : List (Text × Text)} {value : Text × Text}
    (member : value ∈ values)
    (alone : ∀ other ∈ values, lower other.1 = lower value.1 → other = value)
    (headers : HTTPHeaders) :
    ∃ header ∈ (setHeaders headers values).entries,
      lower header.1 = lower value.1 ∧ header.2 = value.2 := by
  have present := (mem_names_setHeaders headers values (lower value.1)).mpr
    (.inr ⟨value, member, rfl⟩)
  obtain ⟨header, inside, same⟩ := List.mem_map.mp present
  rcases mem_setHeaders inside with ⟨-, apart⟩ | ⟨other, isOther, otherName, otherValue⟩
  · exact absurd same (apart value member)
  · obtain rfl := alone other isOther (otherName.symm.trans same)
    exact ⟨header, inside, same, otherValue⟩

/-- Configured headers that are accepted are none of HTTPFS. -/
theorem not_contains_of_checkConfiguredHeaders {previous : Option Text}
    {headers : List (Text × Text)} (accepts : checkConfiguredHeaders previous headers = .ok ()) :
    ∀ header ∈ headers, HTTPFSOwnedS3Headers.contains header.1 = false := by
  induction headers generalizing previous with
  | nil => exact fun _ impossible => absurd impossible List.not_mem_nil
  | cons header headers inductionHypothesis =>
      rw [checkConfiguredHeaders] at accepts
      split at accepts
      · contradiction
      · split at accepts
        · contradiction
        · rename_i notOwned
          rw [List.forall_mem_cons]
          exact ⟨Bool.eq_false_iff.mpr notOwned, inductionHypothesis accepts⟩

theorem not_contains_of_createConfiguredS3Headers {extraHeaders : ExtraHeaders} {userAgent : Text}
    {headers : HTTPHeaders}
    (creates : createConfiguredS3Headers extraHeaders userAgent = .ok headers) :
    ∀ header ∈ headers.entries, HTTPFSOwnedS3Headers.contains header.1 = false := by
  obtain ⟨_, accepts, creates⟩ := bind_eq_ok_iff.mp creates
  have sorted : ∀ header ∈ (setHeaders .empty (sortHeaders extraHeaders.entries)).entries,
      HTTPFSOwnedS3Headers.contains header.1 = false := by
    intro header member
    rcases mem_setHeaders member with ⟨impossible, -⟩ | ⟨value, inSorted, same, -⟩
    · exact absurd impossible List.not_mem_nil
    · have accepted := not_contains_of_checkConfiguredHeaders accepts value inSorted
      rw [HTTPFSOwnedS3Headers.contains, HTTPFSOwnedS3Headers.find?] at accepted ⊢
      rw [same]
      exact accepted
  obtain rfl := Except.ok.inj creates
  split
  · exact sorted
  · by_cases present : lower "User-Agent".toList ∈
        (setHeaders .empty (sortHeaders extraHeaders.entries)).names
    · rw [HTTPHeaders.insert_of_mem present]
      exact sorted
    · rw [HTTPHeaders.entries_insert present]
      intro header member
      rcases List.mem_append.mp member with inside | isAgent
      · exact sorted header inside
      · rw [List.mem_singleton.mp isAgent]
        change HTTPFSOwnedS3Headers.contains "User-Agent".toList = false
        decide

end Httpfs.S3
