import StaticHttp.Command.Flags
import StaticHttp.Server.ConfigFile
import StaticHttp.Server.Logging
import StaticHttp.Server.State
import StaticHttp.Server.AccessLog

/-!
# A run of the command

The command reads its flags; help and version print their text and stop. Otherwise it finds
and reads the configuration file, lets the flags override it, sets up logging, writes the
process id file, makes the server and serves: the main listener, the admin listener when one
is configured, and the content watch when it is on. A signal `USR1` reloads the content, and
`TERM` or `INT` shuts the server down, after which the command stops with exit code zero. A
failure on the way is logged as an error and stops the command with exit code one; a flag it
cannot read stops it with exit code two. On its way out the command removes the process id
file it wrote.

A run is followed through a list of steps taken while the command runs: changes to the file
tree, requests from a client, signals and looks at the process id file. A client's requests
never connect, since the network refuses every dial from the client side; a step that needs
the server once the command has stopped is skipped. A command still serving after the steps
is sent `TERM`.

Entries are logged at the level in effect when they are made: every level before logging is
set up, the configured level after.

Main statements:
* `Command.Options.override_none`: a command line that sets no flag leaves the configuration as
  it is.
* `Command.Progress.exit_code`: ending a run keeps the exit code given.
-/

namespace StaticHttp

namespace Command

open Server

/-- The program's name. -/
def programName : String := "nvhttpd"

/-- The program's version. -/
def programVersion : String := "0.0.1"

/-- What the command runs among: the system configuration file, the directory of the
executable, the process id, the ports other listeners hold, the addresses a client dials for
the server and the admin listener, and the time. -/
structure Surroundings where
  systemFile : String
  exeDir : String
  pid : Nat
  taken : List Int
  serverClient : String
  adminClient : String
  now : Int := 0
  deriving Repr

/-- The signals the command handles. -/
inductive Signal where
  | reload
  | terminate
  | interrupt
  deriving DecidableEq, Repr

/-- A signal's description. -/
def Signal.description : Signal → String
  | .reload => "user defined signal 1"
  | .terminate => "terminated"
  | .interrupt => "interrupt"

/-- A step taken while the command runs. -/
inductive Step where
  /-- Writes a file, creating the directories above it. -/
  | write (path : String) (data : Bytes)
  /-- Removes what a path names, with everything below it. -/
  | remove (path : String)
  /-- Makes a symbolic link, creating the directories above it. -/
  | link (path target : String)
  /-- Sends a request to the server, over TLS when `secure` holds. -/
  | request (secure : Bool) (bytes : Bytes)
  /-- Sends a request to the admin listener. -/
  | admin (method path : String)
  /-- Sends a signal. -/
  | signal (s : Signal)
  /-- Looks at the process id file. -/
  | pidFile (path : String)
  deriving DecidableEq, Repr

/-- What a step gives. -/
inductive Answer where
  /-- The file tree was changed. -/
  | changed
  /-- The change of the file tree failed. -/
  | refused (reason : String)
  /-- A client's request failed. -/
  | failed (kind message : String)
  /-- Whether a reload's outcome was logged. -/
  | handled (seen : Bool)
  /-- The command stopped, with its exit code. -/
  | exited (code : Int)
  /-- Whether the process id file exists, and whether it holds the process id. -/
  | pidFile (present holdsPid : Bool)
  /-- The step needs the server, and the command has stopped. -/
  | skipped
  deriving DecidableEq, Repr

/-- A finished run: exit code, what was printed, the entries logged, the answers of the steps
and the file tree left. -/
structure Session where
  exit : Int
  stdout : String
  stderr : String
  logs : List Log.Entry
  answers : List Answer
  tree : Files.Tree
  deriving Repr

/-- The values the flags override in a configuration. -/
def Options.override (o : Options) (c : Config) : Config :=
  let server := c.server
  let server := match o.listen with | some ip => { server with ip := ip } | none => server
  let server := match o.port with | some p => { server with port := p } | none => server
  let server := match o.root with | some r => { server with htmlPath := r } | none => server
  let logging := if o.verbose then { c.logging with level := "debug" } else c.logging
  { c with server := server, logging := logging }

theorem Options.override_none (c : Config) : ({} : Options).override c = c := rfl

/-- A run on its way: the file tree, the logging in effect, the entries logged, and the
process id file written, if any. -/
structure Progress where
  tree : Files.Tree
  setup : LogSetup := ⟨.trace, .stderr, ""⟩
  logs : List Log.Entry := []
  pidPath : String := ""
  deriving Repr

namespace Progress

/-- Logs entries at the level in effect. -/
def log (p : Progress) (es : List Log.Entry) : Progress :=
  { p with logs := p.logs ++ p.setup.admitted es }

/-- Ends the run with an exit code, removing the process id file written. -/
def exit (p : Progress) (code : Int) : Session :=
  let p :=
    if p.pidPath.isEmpty then p
    else match p.tree.remove p.pidPath with
      | .ok t => { p with tree := t }
      | .error e => p.log [.plain .warn ("unable to remove pid file " ++ p.pidPath ++ ": " ++ e.message)]
  ⟨code, "", "", p.logs, [], p.tree⟩

/-- Ends the run with a failure logged as an error. -/
def fail (p : Progress) (msg : String) : Session := (p.log [.plain .error msg]).exit 1

theorem exit_code (p : Progress) (code : Int) : (p.exit code).exit = code := by
  unfold exit
  split <;> rfl

end Progress

/-- Starts the command up to serving: configuration, logging, process id file and server. A
failure ends the run. -/
def launch (env : Surroundings) (o : Options) (t : Files.Tree) : Except Session (Progress × State) := do
  let p : Progress := { tree := t }
  let (found, notes) := findConfig t o.config env.systemFile env.exeDir
  let p := p.log notes
  let path ← found.mapError fun e => p.fail e.message
  let c ← (loadConfig t path).mapError fun e => p.fail e.message
  let c := o.override c
  let (setup, t) ← (setupLogging p.tree c.logging c.server.name).mapError fun e => p.fail e.message
  let p := { p with tree := t, setup := setup }
  let p := p.log [if path.isEmpty then .plain .warn "no config file specified and none found, using defaults"
    else .plain .info ("using config file " ++ path)]
  let pid := c.logging.pid
  let p ← if pid.isEmpty then pure p else
    match p.tree.writeFile pid (Bytes.ofString (toString env.pid ++ "\n")) with
    | .ok t => pure { p with tree := t, pidPath := pid }
    | .error e => throw (p.fail ("unable to write pid file " ++ pid ++ ": " ++ e.message))
  let (made, loadLogs) := State.new c p.tree env.now
  let p := p.log loadLogs
  let s ← made.mapError fun e => p.fail e.message
  pure (p.log [.plain .info (programName ++ " " ++ programVersion ++ " starting")], s)

/-- The host and port of an address `host:port`, the host without brackets. -/
def splitAddress (addr : String) : Option (String × String) :=
  match addr.splitOn ":" with
  | [] | [_] => none
  | parts =>
    let host := ":".intercalate parts.dropLast
    let host := if host.startsWith "[" && host.endsWith "]" then String.ofList (host.toList.drop 1).dropLast else host
    some (host, parts.getLast!)

/-- A host as a listener names it once bound. -/
def boundHost (host : String) : String :=
  if host.isEmpty || host == "::" then "[::]"
  else if host == "localhost" then "127.0.0.1"
  else if host.any (· == ':') then "[" ++ host ++ "]"
  else host

/-- The address a listener on `addr` reports. -/
def boundAddress (addr : String) : String :=
  match splitAddress addr with
  | some (host, port) => boundHost host ++ ":" ++ port
  | none => addr

/-- The address of a failed listen as the failure names it: no host for every interface. -/
def attemptAddress (addr : String) : String :=
  match splitAddress addr with
  | some (host, port) =>
    (if host.isEmpty then "" else if host == "localhost" then "127.0.0.1"
      else if host.any (· == ':') then "[" ++ host ++ "]" else host) ++ ":" ++ port
  | none => addr

/-- Why listening on an address fails, if it does, given the ports other listeners hold. -/
def listenFailure (taken : List Int) (addr : String) : Option String :=
  match splitAddress addr with
  | none => some ("listen tcp: address " ++ addr ++ ": missing port in address")
  | some (_, port) =>
    if port.toNat?.any fun n => taken.contains n then
      some ("listen tcp " ++ attemptAddress addr ++ ": bind: address already in use")
    else none

/-- A command serving: its progress and its server. -/
structure Running where
  progress : Progress
  state : State

/-- Where a run is: serving, or finished. -/
inductive Phase where
  | serving (r : Running)
  | finished (s : Session)

/-- Starts serving: the main listener, then the admin listener and the watch. When a listener
fails, the server shuts down and the run ends with the failure. -/
def Running.begin (env : Surroundings) (p : Progress) (s : State) : Phase :=
  let c := s.config
  let info (m : String) : Log.Entry := .plain .info m
  let admin := if c.adminListen.isEmpty then [] else
    [info ("admin server listening on: http://" ++ displayAddress c.adminListen)]
  let watch := if c.server.watch then [info ("watching " ++ s.cache.root ++ " for changes")] else []
  let down := [info (c.server.name ++ " shutting down")]
  match listenFailure env.taken c.addr with
  | some e => .finished ((p.log (admin ++ watch ++ down)).fail ("failed to listen on " ++ c.addr ++ ": " ++ e))
  | none =>
    let scheme := if s.profile.isSome then "https" else "http"
    let p := p.log ([info (c.server.name ++ " server listening on: " ++ scheme ++ "://" ++
      displayAddress (boundAddress c.addr))] ++ admin ++ watch)
    let adminFailure := if c.adminListen.isEmpty then none else listenFailure (c.port :: env.taken) c.adminListen
    match adminFailure with
    | some e => .finished ((p.log down).fail ("admin server failed: " ++ e))
    | none => .serving ⟨p, s⟩

/-- Stops a serving command on a signal: the server shuts down and the command stops. -/
def Running.stop (r : Running) (sig : Signal) : Session :=
  let name := r.state.config.server.name
  (r.progress.log [.plain .info ("received " ++ sig.description ++ ", shutting down"),
    .plain .info (name ++ " shutting down"), .plain .info (programName ++ " stopped")]).exit 0

/-- The change a step makes to the file tree, if it is a change. -/
def Step.change (t : Files.Tree) : Step → Option (Except Files.PathError Files.Tree)
  | .write p d => some (t.writeCreating p d)
  | .remove p => some (t.removeAll p)
  | .link p target => some (do (← t.mkdirAll (Files.Tree.parentText p)).symlink p target)
  | _ => none

/-- Whether a byte is white space. -/
def isSpace (b : Byte) : Bool := b == 32 || (9 ≤ b && b ≤ 13)

/-- A look at the process id file. -/
def pidAnswer (env : Surroundings) (t : Files.Tree) (path : String) : Answer :=
  match t.readFile path with
  | .ok d =>
    let trimmed := ((d.dropWhile isSpace).reverse.dropWhile isSpace).reverse
    .pidFile true (trimmed == Bytes.ofString (toString env.pid))
  | .error _ => .pidFile false false

/-- The failure of a dial from the client side. -/
def dialFailure (addr : String) : String := "dial tcp " ++ addr ++ ": connect: network is unreachable"

/-- A method's name as a client's failure writes it: the first letter, then the rest in lower
case. -/
def methodTitle (m : String) : String :=
  match m.toList with
  | [] => "Get"
  | c :: cs => String.ofList (c :: cs.map Char.toLower)

/-- Takes a step while serving. -/
def Running.step (env : Surroundings) (r : Running) : Step → Phase × Answer
  | .pidFile path => (.serving r, pidAnswer env r.progress.tree path)
  | .request _ _ => (.serving r, .failed "dial" (dialFailure env.serverClient))
  | .admin m path =>
    let url := "http://" ++ env.adminClient ++ path
    (.serving r, .failed "admin" (methodTitle m ++ " " ++ Text.Quoted.ofBytes (Bytes.ofString url) ++ ": " ++
      dialFailure env.adminClient))
  | .signal .reload =>
    let p := r.progress.log [.plain .info "received SIGUSR1, reloading"]
    let (s, result, loadLogs) := r.state.reload p.tree env.now
    let done := match result with
      | .ok _ => [Log.Entry.plain .info "reloaded content"]
      | .error _ => []
    let written := p.setup.admitted (loadLogs ++ done)
    let seen := written.any fun e => e.msg == "reloaded content" || e.msg.startsWith "reload failed"
    (.serving ⟨{ p with logs := p.logs ++ written }, s⟩, .handled seen)
  | .signal sig => (.finished (r.stop sig), .exited 0)
  | st =>
    match st.change r.progress.tree with
    | some (.ok t) => (.serving { r with progress := { r.progress with tree := t } }, .changed)
    | some (.error e) => (.serving r, .refused e.message)
    | none => (.serving r, .skipped)

/-- Takes a step once the command has stopped: only changes to the file tree and looks at the
process id file are still taken. -/
def Session.step (env : Surroundings) (s : Session) (st : Step) : Session × Answer :=
  match st with
  | .pidFile path => (s, pidAnswer env s.tree path)
  | _ =>
    match st.change s.tree with
    | some (.ok t) => ({ s with tree := t }, .changed)
    | some (.error e) => (s, .refused e.message)
    | none => (s, .skipped)

/-- Takes a step. -/
def Phase.step (env : Surroundings) : Phase → Step → Phase × Answer
  | .serving r, st => r.step env st
  | .finished s, st => let (s, a) := s.step env st; (.finished s, a)

/-- The run of the command on its arguments over a file tree, with steps taken while it
runs. -/
def run (env : Surroundings) (args : List String) (t : Files.Tree) (steps : List Step) : Session :=
  let first : Phase :=
    match parseFlags args with
    | .error e => .finished ⟨2, "", e ++ "\n" ++ usageText programName, [], [], t⟩
    | .ok o =>
      if o.help then .finished ⟨0, "", usageText programName, [], [], t⟩
      else if o.version then .finished ⟨0, programName ++ " " ++ programVersion ++ "\n", "", [], [], t⟩
      else match launch env o t with
        | .error s => .finished s
        | .ok (p, s) => Running.begin env p s
  let (last, answers) := steps.foldl (fun (ph, as) st =>
    let (ph, a) := ph.step env st
    (ph, as ++ [a])) (first, [])
  let s := match last with
    | .serving r => r.stop .terminate
    | .finished s => s
  { s with answers := answers }

end Command

end StaticHttp
