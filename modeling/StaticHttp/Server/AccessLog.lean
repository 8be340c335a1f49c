import StaticHttp.Request.Basic
import StaticHttp.Response.Status
import StaticHttp.Text.Utf8

/-!
# Access log lines and listening addresses

Every delivered response is logged as one line: method, path, version, status and the bytes
written. Parts of a rejected request that were never read are shown as `-`. A listening
address given as a bare `:port` is shown with the unspecified address `0.0.0.0` in front.

Main statements:
* `accessLine_none`: a request rejected before its method shows three dashes.
-/

namespace StaticHttp

namespace Server

/-- The text of a byte string in a log line; each byte that is not part of a UTF-8 encoding
is shown as the replacement character. -/
def bytesText (b : Bytes) : String := Utf8.lossy b

/-- What the access log shows of a request: its method's name, its path and its version. -/
structure Summary where
  method : String
  uri : Bytes
  version : Version
  deriving DecidableEq, Repr

/-- The summary of a request. -/
def Summary.ofRequest (r : Request) : Summary := ⟨r.method.name, r.uri, r.version⟩

/-- The access log line for a response. -/
def accessLine (req : Option Summary) (st : Status) (written : Int) : String :=
  let (method, uri, version) := match req with
    | none => ("-", "-", "-")
    | some r =>
      (r.method, (if r.uri.isEmpty then "-" else bytesText r.uri),
        (if r.version == Version.zero then "-" else r.version.text))
  method ++ " " ++ uri ++ " " ++ version ++ " " ++ toString st.code ++ " " ++ toString written

/-- A listening address as it is shown: a bare port gets `0.0.0.0` in front. -/
def displayAddress (addr : String) : String :=
  if addr.startsWith ":" then "0.0.0.0" ++ addr else addr

theorem accessLine_none (st : Status) (n : Int) :
    accessLine none st n = "- - - " ++ toString st.code ++ " " ++ toString n := rfl

end Server

end StaticHttp
