import StaticHttp.Server.Config

/-!
# Where the log goes

The logging settings name a level and a destination: standard output (also for an empty
name), standard error, or a file opened for appending and created when missing; the names of
the standard streams are matched in any case. Every entry written carries the server's name in
the field `app` when the server has a name. An entry is written when its level is at or above
the configured one.

Main statements:
* `Server.LogSetup.admitted_panic`: at level `panic` only the entries of level `panic` are written.
-/

namespace StaticHttp

namespace Server

/-- A log destination. -/
inductive LogOutput where
  | stdout
  | stderr
  | file (path : String)
  deriving DecidableEq, Repr

/-- The logging in effect: the level, the destination and the name every entry carries. -/
structure LogSetup where
  level : Log.Level
  output : LogOutput
  app : String
  deriving Repr

/-- Sets up logging over a file tree; a log file is created when it is missing. -/
def setupLogging (t : Files.Tree) (c : LoggingSettings) (name : String) :
    Except ConfigError (LogSetup × Files.Tree) := do
  let level ← parseLevel c.level
  let lower := String.ofList (c.file.toList.map Char.toLower)
  if lower = "" || lower = "stdout" then return (⟨level, .stdout, name⟩, t)
  if lower = "stderr" then return (⟨level, .stderr, name⟩, t)
  match t.appendFile c.file [] with
  | .ok t => return (⟨level, .file c.file, name⟩, t)
  | .error e => throw (.logFile e)

namespace LogSetup

/-- An entry as it is written, with the server's name added. -/
def tag (s : LogSetup) (e : Log.Entry) : Log.Entry :=
  if s.app.isEmpty then e else { e with fields := e.fields ++ [("app", s.app)] }

/-- The entries written, of those logged. -/
def admitted (s : LogSetup) (es : List Log.Entry) : List Log.Entry :=
  (es.filter fun e => s.level.admits e.level).map s.tag

/-- The line of an entry in the text format. -/
def line (e : Log.Entry) : String :=
  "level=" ++ e.level.name ++ " msg=" ++ Text.Quoted.ofBytes (Bytes.ofString e.msg) ++
    String.join (e.fields.map fun (k, v) => " " ++ k ++ "=" ++ v) ++ "\n"

/-- Writes the entries logged to a log file, if that is the destination. -/
def writeFile (s : LogSetup) (t : Files.Tree) (es : List Log.Entry) : Files.Tree :=
  match s.output with
  | .file p => ((t.appendFile p (Bytes.ofString (String.join ((s.admitted es).map line)))).toOption).getD t
  | _ => t

/-- The number of lines of some text: the pieces between line feeds, not counting an empty
piece after the last one. -/
def lineCount (b : Bytes) : Nat :=
  let pieces := (Utf8.lossy b).splitOn "\n"
  (if pieces.getLast? == some "" then pieces.dropLast else pieces).length

/-- The number of lines of the log file, if that is the destination. -/
def fileLines (s : LogSetup) (t : Files.Tree) : Option Nat :=
  match s.output with
  | .file p => some (lineCount ((t.readFile p).toOption.getD []))
  | _ => none

theorem admitted_panic (app : String) (o : LogOutput) (es : List Log.Entry) :
    (LogSetup.mk .panic o app).admitted es =
      (es.filter fun e => e.level == .panic).map (LogSetup.mk .panic o app).tag := by
  unfold admitted
  congr 1
  refine List.filter_congr fun e _ => ?_
  cases e.level <;> rfl

end LogSetup

end Server

end StaticHttp
