import Httpfs.Core.Error

/-!
# HTTP responses

The parts of a response the modelled code inspects.  A response whose request
failed in transport carries a request error; header names are compared without
regard to letter case.
-/

namespace Httpfs.Http

structure HTTPResponse where
  status : Nat
  requestError : String
  headers : List (String × String)
  body : String
  deriving DecidableEq, Repr

namespace HTTPResponse

def hasRequestError (response : HTTPResponse) : Bool :=
  decide (response.requestError ≠ "")

/-- The value of a header, if the response has it. -/
def header? (response : HTTPResponse) (name : String) : Option String :=
  (response.headers.find? fun header => header.1.toLower == name.toLower).map Prod.snd

end HTTPResponse

/-- What a request call gives its caller: a thrown exception or a response. -/
abbrev Reply := Except ErrorData HTTPResponse

end Httpfs.Http
