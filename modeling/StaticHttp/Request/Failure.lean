import StaticHttp.Request.Basic
import StaticHttp.Transport.Cursor
import StaticHttp.Text.Quoted

/-!
# Why a request could not be read

A request fails for one of four reasons: the transport stopped before the request was
complete (`io`), the bytes break the request grammar (`malformed`, answered 400), the method is
one the server does not answer (`unsupported`, 501), or a component is longer than its limit
(`oversized`, 500). Each failure carries its cause, and `ParseError.message` writes it.

Main statements:
* `ParseError.kind_transport`: a transport failure, and only that, is of kind `io`.
-/

namespace StaticHttp

/-- The kinds of a request failure, with `none` for no failure. -/
inductive Kind where
  | none | io | malformed | unsupported | oversized
  deriving DecidableEq, Repr

namespace Kind

/-- A kind's number. -/
def code : Kind → Nat
  | none => 0
  | io => 1
  | malformed => 2
  | unsupported => 3
  | oversized => 4

/-- A kind's name. -/
def name : Kind → String
  | none => "none"
  | io => "io"
  | malformed => "malformed"
  | unsupported => "unsupported"
  | oversized => "oversized"

/-- The kind with a given number. -/
def ofCode? (n : Int) : Option Kind :=
  if n < 0 then Option.none else [none, io, malformed, unsupported, oversized][n.toNat]?

/-- The name of a kind number; a number that names no kind is written `Kind(n)`. -/
def nameOfCode (n : Int) : String :=
  match ofCode? n with
  | some k => k.name
  | Option.none => "Kind(" ++ toString n ++ ")"

end Kind

/-- The components of a request that have a length limit. -/
inductive Component where
  | path | queryName | queryValue | fragment | headerName | headerValue
  deriving DecidableEq, Repr

/-- A component's name in messages. -/
def Component.name : Component → String
  | .path => "path"
  | .queryName => "query name"
  | .queryValue => "query value"
  | .fragment => "fragment"
  | .headerName => "header name"
  | .headerValue => "header value"

/-- The ways a request breaks the grammar. -/
inductive Malformed where
  /-- The method token runs on past seven bytes. -/
  | methodTooLong
  /-- The method token names no method. -/
  | unknownMethod (token : Bytes)
  /-- The line ends right after the method. -/
  | missingUri (m : Method)
  /-- The decoded path does not begin with a slash. -/
  | notAbsolute (path : Bytes)
  /-- A percent escape has a byte that is no hexadecimal digit. -/
  | badEscape (digit : Byte)
  /-- A query variable has no equals sign. -/
  | queryWithoutValue (name : Bytes)
  /-- A simple request line with a method other than `GET`. -/
  | simpleNotGet (m : Method)
  /-- The version does not begin with `HTTP/`. -/
  | versionPrefix
  /-- The version runs on past nine bytes. -/
  | versionTooLong
  /-- A dot in the version comes first or twice. -/
  | misplacedDot
  /-- A byte of the version is neither a digit nor a dot. -/
  | versionChar (b : Byte)
  /-- The version lacks its dot or its minor number. -/
  | incompleteVersion
  /-- Something other than blanks follows the version on its line. -/
  | afterVersion (b : Byte)
  /-- A request of version 0.9 with a method other than `GET`. -/
  | oldVersionNotGet (m : Method)
  /-- A header line begins with its colon. -/
  | emptyHeaderName
  /-- A byte other than the one the grammar requires here. -/
  | unexpected (want got : Byte)
  deriving DecidableEq, Repr

/-- The text of a grammar failure. -/
def Malformed.reason : Malformed → String
  | .methodTooLong => "method token is not followed by whitespace"
  | .unknownMethod t => "unknown method " ++ Text.Quoted.ofBytes t
  | .missingUri m => "expected URI after " ++ m.name
  | .notAbsolute p => "path " ++ Text.Quoted.ofBytes p ++ " is not absolute"
  | .badEscape b => "invalid hex digit " ++ Text.Quoted.ofByte b ++ " in escape"
  | .queryWithoutValue n => "query variable " ++ Text.Quoted.ofBytes n ++ " has no value"
  | .simpleNotGet m => "simple request must be GET, got " ++ m.name
  | .versionPrefix => "expected HTTP/ version token"
  | .versionTooLong => "version token too long"
  | .misplacedDot => "misplaced '.' in version"
  | .versionChar b => "invalid character " ++ Text.Quoted.ofByte b ++ " in version"
  | .incompleteVersion => "incomplete version"
  | .afterVersion b => "unexpected " ++ Text.Quoted.ofByte b ++ " after version"
  | .oldVersionNotGet m => "HTTP/0.9 request must be GET, got " ++ m.name
  | .emptyHeaderName => "empty header name"
  | .unexpected w g => "expected " ++ Text.Quoted.ofByte w ++ ", got " ++ Text.Quoted.ofByte g

/-- The ways a request exceeds its limits. -/
inductive Oversized where
  /-- More header lines than the limit allows. -/
  | tooManyHeaders (limit : Int)
  /-- A component longer than its limit. -/
  | tooLong (what : Component) (limit : Int)
  deriving DecidableEq, Repr

/-- The text of a limit failure. -/
def Oversized.reason : Oversized → String
  | .tooManyHeaders n => "more than " ++ toString n ++ " headers"
  | .tooLong w n => w.name ++ " exceeds " ++ toString n ++ " bytes"

/-- A request that could not be read, with its cause. -/
inductive ParseError where
  | transport (s : Transport.Stop)
  | malformed (m : Malformed)
  | unsupported (m : Method)
  | oversized (o : Oversized)
  deriving DecidableEq, Repr

namespace ParseError

/-- The kind of a failure. -/
def kind : ParseError → Kind
  | transport _ => .io
  | malformed _ => .malformed
  | unsupported _ => .unsupported
  | oversized _ => .oversized

/-- The reason of a failure, without its kind. -/
def reason : ParseError → String
  | transport _ => "transport failed"
  | malformed m => m.reason
  | unsupported m => "method " ++ m.name
  | oversized o => o.reason

/-- The stop behind a transport failure. -/
def cause? : ParseError → Option Transport.Stop
  | transport s => some s
  | _ => none

/-- The text of a failure: its kind, the reason, and the transport's own text after it. -/
def message (e : ParseError) : String :=
  let head := e.kind.name ++ " request: " ++ e.reason
  match e.cause? with
  | some s => head ++ ": " ++ s.message
  | none => head

/-- Whether a failure was caused by the end of the stream. -/
def atEnd (e : ParseError) : Bool := e.cause? == some .endOfStream

theorem kind_transport (e : ParseError) : e.kind = .io ↔ ∃ s, e = transport s := by
  cases e <;> simp [kind]

end ParseError

/-- An error as a caller holds one: a request failure, or any other error with its text. -/
inductive AnyError where
  | request (e : ParseError)
  | other (msg : String)
  deriving DecidableEq, Repr

/-- The kind of an outcome: `none` for no error, a request failure's own kind, and `io` for
every other error, which can only have come from the transport. -/
def Kind.classify : Option AnyError → Kind
  | Option.none => .none
  | some (.request e) => e.kind
  | some (.other _) => .io

end StaticHttp
