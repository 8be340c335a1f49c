import StaticHttp.Server.Config
import StaticHttp.Toml.Decode

/-!
# Configuration files

A configuration file is TOML with the sections `server`, `ssl`, `logging`, `response-headers`
and `admin`. It is read over the defaults, so a key left out keeps its default, and a key the
configuration does not have is an error. A failure at a place in the file is reported as
`file:line:column: toml: ...`.

Without an explicit file, the system file is tried and then the file next to the executable;
if neither exists the defaults are used.

Main statements:
* `Server.loadConfig_empty`: no file gives the defaults.
-/

namespace StaticHttp

namespace Server

open Toml

/-- The shape of a configuration file. -/
def configShape : Shape :=
  .record "server.Config" [
    ("server", "Server", .record "server.ServerConfig" [
      ("ip", "IP", .text), ("port", "Port", .integer), ("html_path", "HTMLPath", .text),
      ("name", "Name", .text), ("max_cache_elements", "MaxCacheElements", .integer),
      ("read_timeout", "ReadTimeout", .integer), ("write_timeout", "WriteTimeout", .integer),
      ("watch", "Watch", .boolean)]),
    ("ssl", "TLS", .record "server.TLSConfig" [
      ("enabled", "Enabled", .boolean), ("certificate", "CertFile", .text), ("key", "KeyFile", .text)]),
    ("logging", "Logging", .record "server.LoggingConfig" [
      ("level", "Level", .text), ("file", "File", .text), ("pid", "PID", .text)]),
    ("response-headers", "ResponseHeaders", .textMap "map[string]string"),
    ("admin", "Admin", .record "server.AdminConfig" [("listen", "Listen", .text)])]

/-- A text as decoded data. -/
def textData (s : String) : Data := .text (Bytes.ofString s)

/-- The decoded form of a configuration. -/
def toData (c : Config) : Data :=
  .record [
    ("Server", .record [("IP", textData c.server.ip), ("Port", .integer c.server.port),
      ("HTMLPath", textData c.server.htmlPath), ("Name", textData c.server.name),
      ("MaxCacheElements", .integer c.server.maxCacheElements),
      ("ReadTimeout", .integer c.server.readTimeout), ("WriteTimeout", .integer c.server.writeTimeout),
      ("Watch", .boolean c.server.watch)]),
    ("TLS", .record [("Enabled", .boolean c.tls.enabled), ("CertFile", textData c.tls.certificate),
      ("KeyFile", textData c.tls.key)]),
    ("Logging", .record [("Level", textData c.logging.level), ("File", textData c.logging.file),
      ("PID", textData c.logging.pid)]),
    ("ResponseHeaders", .textMap (c.responseHeaders.map fun (k, v) => (Bytes.ofString k, Bytes.ofString v))),
    ("Admin", .record [("Listen", textData c.adminListen)])]

/-- The text at a path of decoded data. -/
def textAt (d : Data) (path : List String) (dflt : String) : String :=
  match d.get? (path.map .field) with
  | some (.text s) => Utf8.lossy s
  | _ => dflt

/-- The integer at a path of decoded data. -/
def intAt (d : Data) (path : List String) (dflt : Int) : Int :=
  match d.get? (path.map .field) with
  | some (.integer n) => n
  | _ => dflt

/-- The Boolean at a path of decoded data. -/
def boolAt (d : Data) (path : List String) (dflt : Bool) : Bool :=
  match d.get? (path.map .field) with
  | some (.boolean b) => b
  | _ => dflt

/-- The configuration of decoded data, with `c` for what it lacks. -/
def ofData (d : Data) (c : Config) : Config :=
  let headers := match d.get? [.field "ResponseHeaders"] with
    | some (.textMap es) => es.map fun (k, v) => (Utf8.lossy k, Utf8.lossy v)
    | _ => c.responseHeaders
  let srv : ServerSettings := ⟨textAt d ["Server", "IP"] c.server.ip, intAt d ["Server", "Port"] c.server.port,
    textAt d ["Server", "HTMLPath"] c.server.htmlPath, textAt d ["Server", "Name"] c.server.name,
    intAt d ["Server", "MaxCacheElements"] c.server.maxCacheElements,
    intAt d ["Server", "ReadTimeout"] c.server.readTimeout, intAt d ["Server", "WriteTimeout"] c.server.writeTimeout,
    boolAt d ["Server", "Watch"] c.server.watch⟩
  let tl : TlsSettings := ⟨boolAt d ["TLS", "Enabled"] c.tls.enabled, textAt d ["TLS", "CertFile"] c.tls.certificate,
    textAt d ["TLS", "KeyFile"] c.tls.key⟩
  let lg : LoggingSettings := ⟨textAt d ["Logging", "Level"] c.logging.level, textAt d ["Logging", "File"] c.logging.file,
    textAt d ["Logging", "PID"] c.logging.pid⟩
  ⟨srv, tl, lg, headers, textAt d ["Admin", "Listen"] c.adminListen⟩

/-- The text of a failure to decode the file at `path` holding `doc`. -/
def decodeFailure (path : String) (doc : Bytes) : DecodeError → String
  | .located f =>
    let (row, col) := position doc f.offset
    path ++ ":" ++ toString row ++ ":" ++ toString col ++ ": toml: " ++ f.message
  | .plain text => path ++ ": " ++ text
  | .halted text => text

/-- Reads the configuration file at `path` over the defaults; no path gives the defaults. -/
def loadConfig (t : Files.Tree) (path : String) : Except ConfigError Config :=
  if path.isEmpty then .ok {}
  else
    match t.readFile path with
    | .error e =>
      if e.op == "open" then .error (.configFile e)
      else .error (.other (path ++ ": toml: " ++ e.message))
    | .ok doc =>
      match decode configShape (toData {}) doc with
      | .decoded d => .ok (ofData d {})
      | .failed (.halted text) => .error (.halted text)
      | .failed e => .error (.other (decodeFailure path doc e))
      | .strict => .error (.other (path ++ ": strict mode: fields in the document are missing in the target struct"))

/-- The name of the configuration file looked for. -/
def configFileName : String := "nvhttpd.conf"

/-- The configuration file to use: an explicit one, which must exist, or else the first of the
system file and the file in the executable's directory that exists, or none. Gives the log
entries of the files not found. -/
def findConfig (t : Files.Tree) (explicit systemFile exeDir : String) :
    Except ConfigError String × List Log.Entry :=
  if !explicit.isEmpty then
    match t.stat explicit with
    | .error e => (.error (.configFile e), [])
    | .ok _ => (.ok explicit, [])
  else
    let candidates := [systemFile, Files.Tree.join exeDir configFileName]
    let rec go : List String → List Log.Entry → Except ConfigError String × List Log.Entry
      | [], logs => (.ok "", logs)
      | c :: rest, logs =>
        match t.stat c with
        | .ok _ => (.ok c, logs)
        | .error _ => go rest (logs ++ [Log.Entry.plain .debug ("no config file at " ++ c)])
    go candidates []

theorem loadConfig_empty (t : Files.Tree) : loadConfig t "" = .ok {} := rfl

end Server

end StaticHttp
