import StaticHttp.Files.Tree
import StaticHttp.Log.Basic
import StaticHttp.Text.Quoted

/-!
# Server configuration

The configuration has five sections: the listener and content (`server`), TLS (`ssl`),
logging, extra response headers, and the admin listener. Unset values take their defaults:
any address, port 0 (which means 80, or 443 with TLS), content under `html`, the name
`nvhttpd`, at most 65534 cached files, level `info` to standard output.

Validation reports the first problem in a fixed order: the port range, the content root
(given, present, a directory), the entry limit, the timeouts, the log level, the TLS files,
and then each response header, in order of name.

Main statements:
* `Config.port_of_ne_zero`: a configured port other than zero is the port listened on.
-/

namespace StaticHttp

namespace Server

/-- The listener and content settings. -/
structure ServerSettings where
  ip : String := "any"
  port : Int := 0
  htmlPath : String := "html"
  name : String := "nvhttpd"
  maxCacheElements : Int := 65534
  readTimeout : Int := 0
  writeTimeout : Int := 0
  watch : Bool := false
  deriving DecidableEq, Repr

/-- The TLS settings: whether TLS is on and the certificate and key files. -/
structure TlsSettings where
  enabled : Bool := false
  certificate : String := ""
  key : String := ""
  deriving DecidableEq, Repr

/-- The logging settings: level, destination and process id file. -/
structure LoggingSettings where
  level : String := "info"
  file : String := "stdout"
  pid : String := ""
  deriving DecidableEq, Repr

/-- A whole configuration. Response headers are kept as name and value pairs with distinct
names. -/
structure Config where
  server : ServerSettings := {}
  tls : TlsSettings := {}
  logging : LoggingSettings := {}
  responseHeaders : List (String × String) := []
  adminListen : String := ""
  deriving DecidableEq, Repr

/-- Why a configuration cannot be used. Every such failure is reported with the suffix
`invalid configuration`. -/
inductive ConfigError where
  | portRange (p : Int)
  | noContentRoot
  | contentRoot (e : Files.PathError)
  | contentRootNotDir (path : String)
  | maxEntries (n : Int)
  | negativeTimeout
  | unknownLevel (s : String)
  | noCertificate
  | noKey
  | headerName (name : String)
  | headerValue (name : String)
  | configFile (e : Files.PathError)
  | logFile (e : Files.PathError)
  /-- A failure found elsewhere, with its text. -/
  | other (reason : String)
  /-- A failure that stops the program instead of being reported, with its text. -/
  | halted (reason : String)
  deriving DecidableEq, Repr

namespace ConfigError

/-- The text of a configuration failure before its suffix. -/
def reason : ConfigError → String
  | portRange p => "port " ++ toString p ++ " out of range"
  | noContentRoot => "html_path not provided"
  | contentRoot e => "content root: " ++ e.message
  | contentRootNotDir p => "content root " ++ p ++ " is not a directory"
  | maxEntries n => "max_cache_elements must be positive, got " ++ toString n
  | negativeTimeout => "timeouts cannot be negative"
  | unknownLevel s => "unknown log level " ++ s
  | noCertificate => "ssl enabled without certificate"
  | noKey => "ssl enabled without key"
  | headerName n => "invalid response header name " ++ Text.Quoted.ofBytes (Bytes.ofString n)
  | headerValue n => "response header " ++ n ++ " value contains a line break"
  | configFile e => "config file: " ++ e.message
  | logFile e => "log file: " ++ e.message
  | other r => r
  | halted r => r

/-- The full text of a configuration failure. -/
def message : ConfigError → String
  | halted r => r
  | e => e.reason ++ ": invalid configuration"

end ConfigError

/-- The log level a configured name stands for. -/
def parseLevel (s : String) : Except ConfigError Log.Level :=
  match Log.Level.parse? s with
  | some l => .ok l
  | none => .error (.unknownLevel s)

/-- A 64-bit signed product, wrapping as machine words do. -/
def wrapInt64 (n : Int) : Int :=
  let m := n % 18446744073709551616
  if m ≥ 9223372036854775808 then m - 18446744073709551616 else m

namespace Config

/-- The port listened on: the configured one, or the default for plain or TLS service. -/
def port (c : Config) : Int :=
  if c.server.port ≠ 0 then c.server.port else if c.tls.enabled then 443 else 80

/-- The listening address `host:port`; the address `any`, in any case, leaves the host
empty. -/
def addr (c : Config) : String :=
  let ip := if (c.server.ip.toList.map Char.toLower) == "any".toList then "" else c.server.ip
  ip ++ ":" ++ toString c.port

/-- The read timeout in nanoseconds. -/
def readTimeoutNs (c : Config) : Int := wrapInt64 (c.server.readTimeout * 1000000000)

/-- The write timeout in nanoseconds. -/
def writeTimeoutNs (c : Config) : Int := wrapInt64 (c.server.writeTimeout * 1000000000)

/-- The response headers in order of name. -/
def sortedHeaders (c : Config) : List (String × String) :=
  c.responseHeaders.mergeSort fun a b => decide (a.1 ≤ b.1)

/-- The extra header lines of every response, `Name: value` each, in order of name. -/
def extraHeaders (c : Config) : String :=
  String.join (c.sortedHeaders.map fun (n, v) => n ++ ": " ++ v ++ "\r\n")

/-- Whether a header name is usable: not empty and without colon, blank or line break. -/
def validHeaderName (n : String) : Bool :=
  !n.isEmpty && !n.any fun ch => ch == ':' || ch == ' ' || ch == '\t' || ch == '\r' || ch == '\n'

/-- The first problem with the response headers. -/
def checkHeaders : List (String × String) → Except ConfigError Unit
  | [] => .ok ()
  | (n, v) :: rest =>
    if !validHeaderName n then .error (.headerName n)
    else if v.any (fun ch => ch == '\r' || ch == '\n') then .error (.headerValue n)
    else checkHeaders rest

/-- The first problem with a configuration, looking at the file tree for the content root. -/
def validate (c : Config) (t : Files.Tree) : Except ConfigError Unit := do
  if c.server.port < 0 || c.server.port > 65535 then throw (.portRange c.server.port)
  if c.server.htmlPath.isEmpty then throw .noContentRoot
  match t.stat c.server.htmlPath with
  | .error e => throw (.contentRoot e)
  | .ok k => if !k.isDir then throw (.contentRootNotDir c.server.htmlPath)
  if c.server.maxCacheElements < 1 then throw (.maxEntries c.server.maxCacheElements)
  if c.server.readTimeout < 0 || c.server.writeTimeout < 0 then throw .negativeTimeout
  discard (parseLevel c.logging.level)
  if c.tls.enabled then
    if c.tls.certificate.isEmpty then throw .noCertificate
    if c.tls.key.isEmpty then throw .noKey
  checkHeaders c.sortedHeaders

theorem port_of_ne_zero (c : Config) (h : c.server.port ≠ 0) : c.port = c.server.port := by
  simp [port, h]

end Config

end Server

end StaticHttp
