import StaticHttp.Command.Session

/-!
# The command line

The executable reads its flags as the server does: `--help` prints the usage text, `--version`
the version, and a flag it cannot read stops it with exit code two. Otherwise it checks the
configuration the server would start with: it finds the configuration file, the explicit one
or else the system file, reads it, applies the flags that override it, and checks the logging
level. A failure is printed as the server logs it, with exit code one; a configuration that
passes is named on standard output.
-/

namespace StaticHttp

namespace Command

/-- The system configuration file. -/
def systemConfigFile : String := "/etc/nvhttpd/nvhttpd.conf"

/-- A file tree holding the files at some paths, as far as they could be read. -/
def treeOf (files : List (String × Option Bytes)) : Files.Tree :=
  files.foldl (fun t (p, d) =>
    match d with
    | some d => ((t.writeCreating p d).toOption).getD t
    | none => t) Files.Tree.initial

/-- The check of a configuration over a file tree: the configuration file used, or the text
of the failure. -/
def checkConfig (o : Options) (t : Files.Tree) : Except String String := do
  let (found, _) := Server.findConfig t o.config systemConfigFile "."
  let path ← found.mapError Server.ConfigError.message
  let c ← (Server.loadConfig t path).mapError Server.ConfigError.message
  let c := o.override c
  let _ ← (Server.parseLevel c.logging.level).mapError Server.ConfigError.message
  pure (if path.isEmpty then "defaults" else path)

end Command

end StaticHttp

open StaticHttp Command in
/-- Reads a file's bytes, if it can be read. -/
def readBytes? (path : String) : IO (Option Bytes) := do
  try
    let b ← IO.FS.readBinFile path
    pure (some b.toList)
  catch _ => pure none

open StaticHttp Command in
/-- Runs the command line. -/
def main (args : List String) : IO UInt32 := do
  match parseFlags args with
  | .error e =>
    IO.eprint (e ++ "\n" ++ usageText programName)
    return 2
  | .ok o =>
    if o.help then
      IO.eprint (usageText programName)
      return 0
    if o.version then
      IO.print (programName ++ " " ++ programVersion ++ "\n")
      return 0
    let paths := if o.config.isEmpty then [systemConfigFile] else [o.config]
    let files ← paths.mapM fun p => do return (p, ← readBytes? p)
    match checkConfig o (treeOf files) with
    | .error e =>
      IO.eprintln ("level=error msg=" ++ Text.Quoted.ofBytes (Bytes.ofString e))
      return 1
    | .ok path =>
      IO.println ("configuration ok: " ++ path)
      return 0
