import StaticHttp.Request.Failure

/-!
# Reading a request

A request is read off a cursor in one pass with one byte of lookahead. Blank bytes, line
breaks included, may come before the method. The method is at most seven bytes and is
matched up to ASCII case. The path runs to a blank, `?` or `#`, the query variables to a blank
or `#`, the fragment to a blank; these three are percent-decoded, and a path ending in a slash
gets `index.html` after it. A line feed after blanks ends a simple request. Otherwise
`HTTP/major.minor` follows, then the header lines up to an empty line. Lines may end in a
carriage return and line feed or in a bare line feed. An unsupported method is reported only
once the header section has been read to its end.

Every component has a length limit, counted in decoded bytes before `index.html` is added and
before trailing blanks of a header value are trimmed.

The reader keeps the request as far as it was read, so a failure still tells which method was
asked for.

Main statements:
* `Limits.default`: the limits the server reads with.
-/

namespace StaticHttp

/-- Length limits on the components of a request. A limit of zero or below admits no byte of
the component; a negative header limit admits any number of header lines. -/
structure Limits where
  uri : Int
  queryName : Int
  queryValue : Int
  fragment : Int
  headerName : Int
  headerValue : Int
  headers : Int
  deriving DecidableEq, Repr

/-- The limits the server reads requests with. -/
def Limits.default : Limits := ⟨1024, 128, 1024, 1024, 128, 4096, 64⟩

/-- The largest of the limits, zero when none is positive: no component that ends by its
limit runs on for longer. -/
def Limits.largest (lim : Limits) : Nat :=
  [lim.uri, lim.queryName, lim.queryValue, lim.fragment, lim.headerName, lim.headerValue,
    lim.headers].foldl (fun m l => max m l.toNat) 0

namespace Reading



/-- What the reader holds between steps: the cursor and the request read so far. -/
structure Progress where
  cursor : Transport.Cursor
  request : Option Request

/-- A step of reading: it may fail, and it keeps its progress when it does. -/
abbrev Step := ExceptT ParseError (StateM Progress)

/-- The byte values the grammar names. -/
def lf : Byte := 10
def cr : Byte := 13
def colon : Byte := 58
def question : Byte := 63
def hash : Byte := 35
def percent : Byte := 37
def equals : Byte := 61
def amp : Byte := 38
def dot : Byte := 46
def slash : Byte := 47

/-- The next byte, not consumed. -/
def peek : Step Byte := do
  let s ← get
  let (c, r) := s.cursor.peek
  set { s with cursor := c }
  match r with
  | .ok b => pure b
  | .error e => throw (.transport e)

/-- The next byte, consumed. -/
def next : Step Byte := do
  let s ← get
  let (c, r) := s.cursor.next
  set { s with cursor := c }
  match r with
  | .ok b => pure b
  | .error e => throw (.transport e)

/-- Consumes the byte the last peek showed. -/
def advance : Step Unit := modify fun s => { s with cursor := s.cursor.advance }

/-- Changes the request read so far. -/
def update (f : Request → Request) : Step Unit :=
  modify fun s => { s with request := s.request.map f }

/-- A loop that has run for more steps than the input has bytes. -/
def outOfInput {α : Type} : Step α := throw (.transport .endOfStream)

/-- Consumes the next byte, which must be `want`. -/
def expect (want : Byte) : Step Unit := do
  let ch ← next
  if ch != want then throw (.malformed (.unexpected want ch))

/-- Skips blank bytes, line feeds included. -/
def skipLeading : Nat → Step Unit
  | 0 => outOfInput
  | fuel + 1 => do
    let ch ← peek
    if Byte.isBlank ch then
      advance
      skipLeading fuel

/-- Skips blank bytes up to a line feed, and shows the first byte not skipped. -/
def skipSpace : Nat → Step Byte
  | 0 => outOfInput
  | fuel + 1 => do
    let ch ← peek
    if ch == lf || !Byte.isBlank ch then pure ch
    else
      advance
      skipSpace fuel

/-- Skips spaces and tabs. -/
def skipIndent : Nat → Step Unit
  | 0 => outOfInput
  | fuel + 1 => do
    let ch ← peek
    if ch == 32 || ch == 9 then
      advance
      skipIndent fuel

/-- The method token: up to `room` more bytes before a blank; `acc` holds those read, last
first. -/
def methodToken : Nat → Bytes → Step Bytes
  | room, acc => do
    let ch ← peek
    if Byte.isBlank ch then pure acc.reverse
    else
      match room with
      | 0 => throw (.malformed .methodTooLong)
      | room + 1 =>
        advance
        methodToken room (ch :: acc)

/-- The method whose name the token is, up to ASCII case. -/
def matchMethod (tok : Bytes) : Option Method :=
  Method.all.find? fun m => Bytes.ofString m.name == Bytes.toUpper tok

/-- The byte that a percent escape stands for; both digits are consumed before either is
checked. -/
def escape : Step Byte := do
  let hi ← next
  let lo ← next
  match Byte.hexValue? hi with
  | none => throw (.malformed (.badEscape hi))
  | some h =>
    match Byte.hexValue? lo with
    | none => throw (.malformed (.badEscape lo))
    | some l => pure (h * 16 + l)

/-- The bytes up to the first one that `stop` holds of, which stays unread; `n` counts the
bytes in `acc`, last first. With `decode`, percent escapes are decoded before they count
against `limit`. -/
def token (limit : Int) (what : Component) (decode : Bool) (stop : Byte → Bool) :
    Nat → Nat → Bytes → Step Bytes
  | 0, _, _ => outOfInput
  | fuel + 1, n, acc => do
    let ch ← peek
    if stop ch then pure acc.reverse
    else
      advance
      let b ← if decode && ch == percent then escape else pure ch
      if limit ≤ (n : Int) then throw (.oversized (.tooLong what limit))
      token limit what decode stop fuel (n + 1) (b :: acc)

/-- Ends a query variable's name. -/
def endsQueryName (b : Byte) : Bool := b == equals || b == amp || b == hash || Byte.isBlank b

/-- Ends a query variable's value. -/
def endsQueryValue (b : Byte) : Bool := b == amp || b == hash || Byte.isBlank b

/-- Ends the path. -/
def endsPath (b : Byte) : Bool := Byte.isBlank b || b == question || b == hash

/-- Ends a header name. -/
def endsHeaderName (b : Byte) : Bool := b == colon || Byte.isBlank b

/-- Ends a header value. -/
def endsHeaderValue (b : Byte) : Bool := b == cr || b == lf

/-- The path, made absolute-checked and given `index.html` when it names a directory. -/
def path (lim : Limits) (fuel : Nat) : Step Unit := do
  let p ← token lim.uri .path true endsPath fuel 0 []
  if p.head? == some slash then
    let p := if p.getLast? == some slash then p ++ Bytes.ofString "index.html" else p
    update fun r => { r with uri := p }
  else throw (.malformed (.notAbsolute p))

/-- The query variables, up to a blank or `#`. -/
def query (lim : Limits) (fuel : Nat) : Nat → Step Unit
  | 0 => outOfInput
  | steps + 1 => do
    let ch ← peek
    if Byte.isBlank ch || ch == hash then pure ()
    else
      let name ← token lim.queryName .queryName true endsQueryName fuel 0 []
      let ch ← peek
      if ch != equals then throw (.malformed (.queryWithoutValue name))
      advance
      let value ← token lim.queryValue .queryValue true endsQueryValue fuel 0 []
      update fun r => { r with query := r.query ++ [⟨name, value⟩] }
      let ch ← peek
      if ch == amp then advance
      query lim fuel steps

/-- The bytes of the version after `HTTP/`: at most `room` more before a blank, with the dot
seen or not, the digits since the dot or the start, and the two numbers. -/
def versionNumbers : Nat → Bool → Nat → Int → Int → Step (Bool × Nat × Int × Int)
  | room, seenDot, digits, major, minor => do
    let ch ← peek
    if Byte.isBlank ch then pure (seenDot, digits, major, minor)
    else
      match room with
      | 0 => throw (.malformed .versionTooLong)
      | room + 1 =>
        advance
        if ch == dot then
          if seenDot || digits == 0 then throw (.malformed .misplacedDot)
          versionNumbers room true 0 major minor
        else if Byte.isDigit ch then
          let d : Int := (ch - 48).toNat
          if seenDot then versionNumbers room seenDot (digits + 1) major (minor * 10 + d)
          else versionNumbers room seenDot (digits + 1) (major * 10 + d) minor
        else throw (.malformed (.versionChar ch))

/-- Consumes the bytes of `word`, each of which must come in turn. -/
def versionWord : Bytes → Step Unit
  | [] => pure ()
  | w :: ws => do
    let ch ← next
    if ch != w then throw (.malformed .versionPrefix)
    versionWord ws

/-- The version token `HTTP/major.minor`, at most nine bytes after the slash. -/
def version : Step Unit := do
  versionWord (Bytes.ofString "HTTP/")
  let (seenDot, digits, major, minor) ← versionNumbers 9 false 0 0 0
  if !seenDot || digits == 0 then throw (.malformed .incompleteVersion)
  update fun r => { r with version := ⟨major, minor⟩ }

/-- Removes trailing spaces and tabs. -/
def trimRight (s : Bytes) : Bytes :=
  (s.reverse.dropWhile fun b => b == 32 || b == 9).reverse

/-- The header lines, up to and including the empty line that ends them. -/
def headers (lim : Limits) (fuel : Nat) : Nat → Step Unit
  | 0 => outOfInput
  | steps + 1 => do
    let ch ← peek
    if ch == cr then
      advance
      expect lf
    else if ch == lf then
      advance
    else
      let count := ((← get).request.map fun r => r.headers.length).getD 0
      if (count : Int) == lim.headers then throw (.oversized (.tooManyHeaders lim.headers))
      let name ← token lim.headerName .headerName false endsHeaderName fuel 0 []
      if name.isEmpty then throw (.malformed .emptyHeaderName)
      expect colon
      skipIndent fuel
      let value ← token lim.headerValue .headerValue false endsHeaderValue fuel 0 []
      update fun r => { r with headers := r.headers ++ [⟨name, trimRight value⟩] }
      let ch ← next
      if ch == cr then expect lf
      headers lim fuel steps

/-- The version read so far. -/
def currentVersion : Step Version := do
  pure (((← get).request.map Request.version).getD Version.zero)

/-- The rest of a request line of method `m`, from the first byte after the target: a line
feed ends a simple request; otherwise the version, the end of the line, and the header
section. -/
def ending (lim : Limits) (fuel : Nat) (m : Method) : Step Unit := do
  let ch ← skipSpace fuel
  if ch == lf then
    advance
    update fun r => { r with form := .simple, version := Version.v09 }
    if m != .get then throw (.malformed (.simpleNotGet m))
  else
    version
    let ch ← skipSpace fuel
    if ch != lf then throw (.malformed (.afterVersion ch))
    advance
    if (← currentVersion) == Version.v09 then
      update fun r => { r with form := .simple }
      if m != .get then throw (.malformed (.oldVersionNotGet m))
    headers lim fuel fuel
    if !m.implemented then throw (.unsupported m)

/-- From the byte `ch` after the path and the query, which the last peek showed: the fragment
after `#`, then the rest of the request. -/
def afterQuery (lim : Limits) (fuel : Nat) (m : Method) (ch : Byte) : Step Unit := do
  if ch == hash then
    advance
    let f ← token lim.fragment .fragment true Byte.isBlank fuel 0 []
    update fun r => { r with fragment := f }
  ending lim fuel m

/-- From the byte after the path: the query variables after `?`, then the fragment and the
rest of the request. -/
def afterPath (lim : Limits) (fuel : Nat) (m : Method) : Step Unit := do
  let ch ← peek
  if ch == question then
    advance
    query lim fuel fuel
    afterQuery lim fuel m (← peek)
  else afterQuery lim fuel m ch

/-- A whole request. Every loop is bounded by `fuel`, which is to be more than the bytes the
cursor can give. -/
def request (lim : Limits) (fuel : Nat) : Step Unit := do
  skipLeading fuel
  let tok ← methodToken Method.maxNameLength []
  let m ← match matchMethod tok with
    | some m => pure m
    | none => throw (.malformed (.unknownMethod tok))
  modify fun s => { s with request := some { method := m } }
  let ch ← skipSpace fuel
  if ch == lf then throw (.malformed (.missingUri m))
  path lim fuel
  afterPath lim fuel m

end Reading

/-- The result of reading a request: the request as far as it was read (none before its
method), the failure if there was one, and the cursor after it. -/
structure Parsed where
  request : Option Request
  error : Option ParseError
  cursor : Transport.Cursor

namespace Parsed

/-- The failure's kind, `none` on success. -/
def kind (p : Parsed) : Kind := (p.error.map ParseError.kind).getD .none

/-- The bytes the reader consumed: those the transport handed out less those still in the
window, which may hold old bytes the transport never handed out. -/
def consumed (p : Parsed) : Int := (p.cursor.delivered : Int) - p.cursor.buffered

end Parsed

/-- The steps given to a transport that never stops handing out bytes, beyond the largest
limit. -/
def Parsed.endlessBudget : Nat := 1048576

/-- Reads one request off a cursor with the given limits. -/
def Request.parse (lim : Limits) (c : Transport.Cursor) : Parsed :=
  let fuel := c.budget (Parsed.endlessBudget + lim.largest) + 1
  match ((Reading.request lim fuel).run.run ⟨c, none⟩) with
  | (r, s) => ⟨s.request, (match r with | .ok _ => none | .error e => some e), s.cursor⟩

end StaticHttp
