import Httpfs.Text.Core

/-!
# HTTP parameters

The settings of the requests of one file or session.
-/

namespace Httpfs.Http

open Text

/-- The headers a user configures, in the order an iteration over them visits
them; a name has one value. -/
structure ExtraHeaders where
  entries : List (Text × Text)
  distinct : (entries.map Prod.fst).Nodup
  deriving DecidableEq

namespace ExtraHeaders

def empty : ExtraHeaders :=
  ⟨[], List.nodup_nil⟩

/-- `==` of two unordered maps. -/
def same (headers other : ExtraHeaders) : Bool :=
  headers.entries.isPerm other.entries

theorem same_iff {headers other : ExtraHeaders} :
    headers.same other = true ↔ headers.entries.Perm other.entries :=
  List.isPerm_iff

end ExtraHeaders

structure HTTPFSParams where
  retries : Nat := 3
  httpProxy : Text := []
  httpProxyPort : Nat := 0
  httpProxyUsername : Text := []
  httpProxyPassword : Text := []
  extraHeaders : ExtraHeaders := .empty
  overrideVerifySsl : Bool := false
  verifySsl : Bool := true
  bearerToken : Text := []
  userAgent : Text := []
  preMergedHeaders : Bool := false
  deriving DecidableEq

end Httpfs.Http
