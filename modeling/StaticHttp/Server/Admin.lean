import StaticHttp.Server.State
import StaticHttp.Text.Json
import StaticHttp.Response.Date

/-!
# The administrative interface

Three routes: `POST /reload` loads the content again, `GET /status` describes the server and
its live generation, and `GET /metrics` gives the counters. Status and reload answer a JSON
object with the server's name, content root, whether TLS is on and, when there is one, the live
generation; a failed reload answers 500 with the failure added. Requests are routed by their
path with its escapes decoded. A path that is not in clean form is redirected to its clean form,
a known path asked with another method answers 405, and anything else 404.

Main statements:
* `State.statusJson_line`: a status object is one line, ended by a line break.
-/

namespace StaticHttp

namespace Server

/-- A request to the administrative interface: method and path. -/
structure AdminRequest where
  method : String
  path : String
  remote : String := "192.0.2.1:1234"
  deriving DecidableEq, Repr

/-- An answer of the administrative interface. -/
structure AdminReply where
  code : Nat
  contentType : String := ""
  body : String := ""
  location : Option String := none
  deriving DecidableEq, Repr

/-- The content type of JSON answers. -/
def jsonType : String := "application/json"

/-- A time in seconds since 1970 as an RFC 3339 text in UTC. -/
def rfc3339 (secs : Int) : String :=
  let (y, m, d) := Date.civil (secs / 86400)
  let rem := (secs % 86400).toNat
  Date.yearText y ++ "-" ++ Date.padded 2 m ++ "-" ++ Date.padded 2 d ++ "T" ++
    Date.padded 2 (rem / 3600) ++ ":" ++ Date.padded 2 (rem / 60 % 60) ++ ":" ++
    Date.padded 2 (rem % 60) ++ "Z"

/-- The lexically clean form of a path below the root: no empty, `.` or `..` components; a
trailing slash is kept. -/
def cleanRoute (p : String) : String :=
  let p := if p.startsWith "/" then p else "/" ++ p
  let parts := (p.splitOn "/").foldl (fun acc c =>
    if c = "" || c = "." then acc
    else if c = ".." then acc.dropLast
    else acc ++ [c]) []
  let np := "/" ++ "/".intercalate parts
  if p.endsWith "/" && np ≠ "/" then np ++ "/" else np

/-- The bytes a path stands for, its escapes `%XX` decoded; none when an escape is not two
hexadecimal digits. -/
def unescapePath : Bytes → Option Bytes
  | [] => some []
  | 37 :: a :: b :: rest =>
    match Byte.hexValue? a, Byte.hexValue? b with
    | some x, some y => (unescapePath rest).map ((x * 16 + y) :: ·)
    | _, _ => none
  | 37 :: _ => none
  | c :: rest => (unescapePath rest).map (c :: ·)

/-- The path a request is routed by: the part before the query, its escapes decoded. -/
def routePath (target : String) : String :=
  let raw := (target.splitOn "?").headD ""
  match unescapePath (Bytes.ofString raw) with
  | some b => Utf8.lossy b
  | none => raw

namespace State

/-- The status object for a generation, with a failure when there is one. -/
def statusJson (s : State) (g : Option Content.Generation) (failure : String) : String :=
  let gen := match g with
    | some g => [("generation", Json.object [("id", toString g.id),
        ("loaded", Json.quote (rfc3339 g.loaded)),
        ("entries", toString (Content.Generation.size (some g))),
        ("capacity", toString (Content.Generation.capacity (some g))),
        ("bytes", toString (Content.Generation.bytes (some g)))])]
    | none => []
  let err := if failure.isEmpty then [] else [("error", Json.quote failure)]
  Json.object ([("name", Json.quote s.config.server.name), ("root", Json.quote s.cache.root),
    ("tls", Json.bool s.profile.isSome)] ++ gen ++ err) ++ "\n"

/-- The counters in the text exposition format. -/
def metricsText (s : State) : String :=
  String.join ((s.metrics.series s.current).map fun (k, v) => k ++ " " ++ toString v ++ "\n")

/-- Answers a request of the administrative interface over a file tree at time `now`. -/
def admin (s : State) (t : Files.Tree) (now : Int) (r : AdminRequest) :
    State × AdminReply × List Log.Entry :=
  let path := routePath r.path
  let clean := cleanRoute path
  if clean ≠ path then (s, { code := 301, location := some clean }, [])
  else if path = "/reload" then
    if r.method ≠ "POST" then (s, { code := 405 }, [])
    else
      let asked := Log.Entry.plain .info ("reload requested by " ++ r.remote)
      let (s, result, logs) := s.reload t now
      match result with
      | .error e =>
        (s, ⟨500, jsonType, s.statusJson s.current (Content.Cache.failureText e), none⟩, asked :: logs)
      | .ok g => (s, ⟨200, jsonType, s.statusJson (some g) "", none⟩, asked :: logs)
  else if path = "/status" then
    if r.method ≠ "GET" then (s, { code := 405 }, [])
    else (s, ⟨200, jsonType, s.statusJson s.current "", none⟩, [])
  else if path = "/metrics" then
    if r.method ≠ "GET" then (s, { code := 405 }, [])
    else (s, ⟨200, "text/plain; version=0.0.4; charset=utf-8", s.metricsText, none⟩, [])
  else (s, ⟨404, "text/plain; charset=utf-8", "404 page not found\n", none⟩, [])

theorem statusJson_line (s : State) (g : Option Content.Generation) (failure : String) :
    ∃ obj, s.statusJson g failure = obj ++ "\n" :=
  ⟨_, rfl⟩

end State

end Server

end StaticHttp
