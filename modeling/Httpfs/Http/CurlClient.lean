import Httpfs.S3.Request.Data

/-!
# Request targets of the curl client

The client sets its base URL when it connects, and adds the path of every request
to it.  A path that begins with `//` would name another host, so such beginnings
are cut down first.
-/

namespace Httpfs.Http.Curl

open Text
open Httpfs.S3 (RequestType)

/-- Leading slashes and `.` segments before a slash go one by one while more than
two bytes are left. -/
def normalizePathToBeAdded : Text → Text
  | first :: second :: third :: rest =>
      if startsWith (first :: second :: third :: rest) "//".toList then
        normalizePathToBeAdded (second :: third :: rest)
      else if startsWith (first :: second :: third :: rest) "./".toList then
        normalizePathToBeAdded (second :: third :: rest)
      else first :: second :: third :: rest
  | addedPath => addedPath

/-- What a path begins with when a byte of it goes. -/
def Shortened (addedPath : Text) : Prop :=
  2 < addedPath.length ∧
    (startsWith addedPath "//".toList = true ∨ startsWith addedPath "./".toList = true)

/-- The loop leaves an end of the path, at which it has nothing more to do. -/
theorem normalizePathToBeAdded_spec (addedPath : Text) :
    normalizePathToBeAdded addedPath <:+ addedPath ∧
      ¬ Shortened (normalizePathToBeAdded addedPath) := by
  fun_induction normalizePathToBeAdded addedPath with
  | case1 first second third rest doubled inductionHypothesis =>
      exact ⟨inductionHypothesis.1.trans (List.suffix_cons _ _), inductionHypothesis.2⟩
  | case2 first second third rest single dotted inductionHypothesis =>
      exact ⟨inductionHypothesis.1.trans (List.suffix_cons _ _), inductionHypothesis.2⟩
  | case3 first second third rest single plain =>
      refine ⟨List.suffix_rfl, ?_⟩
      rintro ⟨-, doubled | dotted⟩
      · exact single doubled
      · exact plain dotted
  | case4 addedPath short =>
      refine ⟨List.suffix_rfl, ?_⟩
      rintro ⟨long, -⟩
      rcases addedPath with _ | ⟨first, _ | ⟨second, _ | ⟨third, rest⟩⟩⟩
      · contradiction
      · contradiction
      · contradiction
      · exact short first second third rest rfl

/-- The client leaves alone exactly the paths it does not shorten. -/
theorem normalizePathToBeAdded_eq_self_iff (addedPath : Text) :
    normalizePathToBeAdded addedPath = addedPath ↔ ¬ Shortened addedPath := by
  constructor
  · intro same
    rw [← same]
    exact (normalizePathToBeAdded_spec addedPath).2
  · intro kept
    fun_cases normalizePathToBeAdded addedPath with
    | case1 first second third rest doubled => exact absurd ⟨by simp, .inl doubled⟩ kept
    | case2 first second third rest single dotted => exact absurd ⟨by simp, .inr dotted⟩ kept
    | case3 first second third rest single plain => rfl
    | case4 addedPath short => rfl

/-! ## Requests -/

/-- What curl is asked to do: the method, the base URL, and the path set on it. -/
structure CurlRequest where
  method : Text
  baseUrl : Text
  path : Text
  deriving DecidableEq, Repr

/-- Host and path of a request, without the query string. -/
def CurlRequest.target (request : CurlRequest) : Text × Text :=
  (request.baseUrl, request.path.takeWhile (· ≠ '?'))

structure HTTPFSCurlClient where
  curlBaseUrl : Text
  deriving DecidableEq, Repr

namespace HTTPFSCurlClient

def connect (protoHostPort : Text) : HTTPFSCurlClient :=
  ⟨normalizePathToBeAdded protoHostPort⟩

/-- The part that the methods share. -/
def setUrl (client : HTTPFSCurlClient) (method : String) (path : Text) : CurlRequest :=
  ⟨method.toList, client.curlBaseUrl, normalizePathToBeAdded path⟩

def get (client : HTTPFSCurlClient) (path : Text) : CurlRequest :=
  client.setUrl "GET" path

def put (client : HTTPFSCurlClient) (path : Text) : CurlRequest :=
  client.setUrl "PUT" path

def head (client : HTTPFSCurlClient) (path : Text) : CurlRequest :=
  client.setUrl "HEAD" path

def delete (client : HTTPFSCurlClient) (path : Text) : CurlRequest :=
  client.setUrl "DELETE" path

def options (client : HTTPFSCurlClient) (path : Text) : CurlRequest :=
  client.setUrl "OPTIONS" path

def post (client : HTTPFSCurlClient) (path : Text) (sendPostAsGetRequest : Bool) : CurlRequest :=
  client.setUrl (if sendPostAsGetRequest then "GET" else "POST") path

def send (client : HTTPFSCurlClient) (requestType : RequestType) (path : Text)
    (sendPostAsGetRequest : Bool) : CurlRequest :=
  match requestType with
  | .get => client.get path
  | .put => client.put path
  | .head => client.head path
  | .delete => client.delete path
  | .options => client.options path
  | .post => client.post path sendPostAsGetRequest

/-- Every method goes to the base URL, and to the path as it is normalized. -/
theorem send_eq (client : HTTPFSCurlClient) (requestType : RequestType) (path : Text)
    (sendPostAsGetRequest : Bool) :
    (client.send requestType path sendPostAsGetRequest).baseUrl = client.curlBaseUrl ∧
      (client.send requestType path sendPostAsGetRequest).path =
        normalizePathToBeAdded path := by
  cases requestType with
  | get | put | head | delete | options | post => exact ⟨rfl, rfl⟩

end HTTPFSCurlClient

end Httpfs.Http.Curl
