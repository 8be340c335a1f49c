import StaticHttp.Bytes.Basic

/-!
# Log entries and levels

An entry has a level, a message and named fields. Levels run from `panic`, the most severe, to
`trace`; a logger set to a level passes the entries of that level and every more severe one.
A level is named in configuration by its name in any case, `warn` and `warning` alike, or by
`all` for `trace`.

Main statements:
* `Level.parse?_name`: a level's own name reads back as that level.
-/

namespace StaticHttp

namespace Log

/-- Log levels, most severe first. -/
inductive Level where
  | panic | fatal | error | warn | info | debug | trace
  deriving DecidableEq, Repr

namespace Level

/-- A level's severity rank: zero for `panic`, six for `trace`. -/
def rank : Level → Nat
  | panic => 0
  | fatal => 1
  | error => 2
  | warn => 3
  | info => 4
  | debug => 5
  | trace => 6

/-- A level's name. -/
def name : Level → String
  | panic => "panic"
  | fatal => "fatal"
  | error => "error"
  | warn => "warning"
  | info => "info"
  | debug => "debug"
  | trace => "trace"

/-- Whether a logger set to `threshold` passes an entry of level `l`. -/
def admits (threshold l : Level) : Bool := l.rank ≤ threshold.rank

/-- The level a configured name stands for, compared up to ASCII case. -/
def parse? (s : String) : Option Level :=
  let l := foldName s
  if l = "all" then some trace
  else if l = "panic" then some panic
  else if l = "fatal" then some fatal
  else if l = "error" then some error
  else if l = "warn" || l = "warning" then some warn
  else if l = "info" then some info
  else if l = "debug" then some debug
  else if l = "trace" then some trace
  else none

theorem parse?_name (l : Level) : parse? l.name = some l := by
  cases l <;> decide

end Level

/-- A log entry: level, message and fields in the order they were added. -/
structure Entry where
  level : Level
  msg : String
  fields : List (String × String) := []
  deriving DecidableEq, Repr

/-- An entry with no fields. -/
def Entry.plain (level : Level) (msg : String) : Entry := ⟨level, msg, []⟩

end Log

end StaticHttp
