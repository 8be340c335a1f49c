import StaticHttp.Text.CaseFold

/-!
# Requests

A request names a method, a decoded path, optional query variables and fragment, a protocol
version and, for a full request, header lines. Methods are the eight of HTTP/1.1; only `GET`
and `HEAD` are served. A simple request is a bare HTTP/0.9 request line.

Main statements:
* `Method.ofCode?_code`: a method's number gives the method back.
* `Request.header?_eq_none_iff`: a header lookup misses exactly when no header name equals the
  name up to case.
-/

namespace StaticHttp

/-- The request methods, in the order of their numbers. -/
inductive Method where
  | connect | delete | get | head | options | post | put | trace
  deriving DecidableEq, Repr

namespace Method

/-- All methods, in the order of their numbers. -/
def all : List Method := [connect, delete, get, head, options, post, put, trace]

/-- A method's name as it appears on the request line. -/
def name : Method → String
  | connect => "CONNECT"
  | delete => "DELETE"
  | get => "GET"
  | head => "HEAD"
  | options => "OPTIONS"
  | post => "POST"
  | put => "PUT"
  | trace => "TRACE"

/-- A method's number. -/
def code : Method → Nat
  | connect => 0
  | delete => 1
  | get => 2
  | head => 3
  | options => 4
  | post => 5
  | put => 6
  | trace => 7

/-- The method with a given number. -/
def ofCode? (n : Int) : Option Method :=
  if n < 0 then none else all[n.toNat]?

/-- The name of a method number; a number that names no method is written `Method(n)`. -/
def nameOfCode (n : Int) : String :=
  match ofCode? n with
  | some m => m.name
  | none => "Method(" ++ toString n ++ ")"

/-- The methods the server answers. -/
def implemented (m : Method) : Bool := m == get || m == head

/-- The longest method name has seven bytes. -/
def maxNameLength : Nat := 7

theorem ofCode?_code (m : Method) : ofCode? m.code = some m := by
  cases m <;> rfl

end Method

/-- The two forms of a request: a full request line carries a version and a header section,
a simple one is a bare HTTP/0.9 line. -/
inductive Form where
  | full
  | simple
  deriving DecidableEq, Repr

namespace Form

/-- The form's name. -/
def name : Form → String
  | full => "full"
  | simple => "simple"

/-- The name of a form number: one is simple, every other number full. -/
def nameOfCode (n : Int) : String := if n = 1 then "simple" else "full"

end Form

/-- A protocol version, major and minor number. -/
structure Version where
  major : Int
  minor : Int
  deriving DecidableEq, Repr

namespace Version

/-- The version's text, `HTTP/major.minor`. -/
def text (v : Version) : String := "HTTP/" ++ toString v.major ++ "." ++ toString v.minor

/-- The version that a simple request implies. -/
def v09 : Version := ⟨0, 9⟩

/-- The version of a request line not yet read. -/
def zero : Version := ⟨0, 0⟩

end Version

/-- A name and value: a query variable or a header line. -/
structure Field where
  name : Bytes
  value : Bytes
  deriving DecidableEq, Repr

/-- A request, or as much of one as was read. -/
structure Request where
  method : Method
  form : Form := .full
  uri : Bytes := []
  fragment : Bytes := []
  query : List Field := []
  headers : List Field := []
  version : Version := Version.zero
  deriving DecidableEq, Repr

namespace Request

/-- The value of the first query variable whose name is `name`, byte for byte. -/
def query? (r : Request) (name : Bytes) : Option Bytes :=
  (r.query.find? fun f => f.name == name).map Field.value

/-- The value of the first header whose name is `name` up to case, Unicode's simple case
folding included: a name with the Kelvin sign is found as `k`. -/
def header? (r : Request) (name : Bytes) : Option Bytes :=
  (r.headers.find? fun f => Text.equalFold f.name name).map Field.value

theorem header?_eq_none_iff (r : Request) (name : Bytes) :
    r.header? name = none ↔ ∀ f ∈ r.headers, Text.equalFold f.name name = false := by
  simp [header?, List.find?_eq_none]

end Request

end StaticHttp
