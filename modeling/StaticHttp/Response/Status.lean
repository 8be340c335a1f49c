import StaticHttp.Request.Failure

/-!
# Response statuses

A status is a number with a reason phrase; the server uses five of them. A failed request is
answered 400 when it breaks the grammar, 501 when its method is not served, and 500 otherwise.
-/

namespace StaticHttp

/-- A response status code. -/
structure Status where
  code : Int
  deriving DecidableEq, Repr

namespace Status

def ok : Status := ⟨200⟩
def badRequest : Status := ⟨400⟩
def notFound : Status := ⟨404⟩
def internalError : Status := ⟨500⟩
def notImplemented : Status := ⟨501⟩

/-- The reason phrase of the five statuses the server uses, and nothing for any other. -/
def reason (s : Status) : String :=
  if s.code = 200 then "OK"
  else if s.code = 400 then "Bad Request"
  else if s.code = 404 then "Not Found"
  else if s.code = 500 then "Internal Server Error"
  else if s.code = 501 then "Not Implemented"
  else ""

/-- The status line without the protocol: the code, a space and the reason phrase. -/
def line (s : Status) : String := toString s.code ++ " " ++ s.reason

/-- The content path of the page the operator may provide for a status. -/
def errorPath (s : Status) : String := "/error/" ++ toString s.code ++ "/index.html"

/-- The status that answers a failed request of the given kind. -/
def ofKind : Kind → Status
  | .malformed => badRequest
  | .unsupported => notImplemented
  | _ => internalError

/-- The status that answers a kind number. -/
def ofKindCode (n : Int) : Status := ((Kind.ofCode? n).map ofKind).getD internalError

end Status

end StaticHttp
