import StaticHttp.Toml.Number

/-!
# Command-line flags

The command line takes seven flags, each with a long name and a one-letter shorthand: three
that hold a text, one that holds a number and three switches. A long flag is written `--name`,
`--name=value` or `--name value`. A shorthand is written `-x`, `-x=value`, `-xvalue` or
`-x value`, and switches may run together, as in `-vV`. A switch takes no next argument; given
a value it reads the boolean words. Arguments that are no flag are kept in order, and `--`
ends the flags. A number is an integer literal with an optional sign, base prefix and
underscores between digits, and must fit in 64 bits.

The usage text lists the flags by long name, each with its kind of value and its help, the
help texts aligned in one column.

Main statements:
* `Command.Flag.ofName_name`: every flag is found by its long name.
-/

namespace StaticHttp

namespace Command

/-- What a flag holds. -/
inductive FlagKind where
  | text
  | number
  | switch
  deriving DecidableEq, Repr

/-- The flags of the command line. -/
inductive Flag where
  | config | help | listen | port | root | verbose | version
  deriving DecidableEq, Repr

namespace Flag

/-- All flags, in the order of their long names. -/
def all : List Flag := [config, help, listen, port, root, verbose, version]

/-- A flag's long name. -/
def name : Flag → String
  | config => "config"
  | help => "help"
  | listen => "listen"
  | port => "port"
  | root => "root"
  | verbose => "verbose"
  | version => "version"

/-- A flag's one-letter shorthand. -/
def shorthand : Flag → Char
  | config => 'c'
  | help => 'h'
  | listen => 'l'
  | port => 'p'
  | root => 'r'
  | verbose => 'V'
  | version => 'v'

/-- What a flag holds. -/
def kind : Flag → FlagKind
  | config | listen | root => .text
  | port => .number
  | help | verbose | version => .switch

/-- A flag's help text. -/
def usage : Flag → String
  | config => "Configuration file path"
  | help => "Show this help"
  | listen => "Listen address, overrides server.ip"
  | port => "Listen port, overrides server.port"
  | root => "Content directory, overrides server.html_path"
  | verbose => "Verbose output, overrides logging.level"
  | version => "Print version and exit"

/-- The flag with a long name. -/
def ofName (s : String) : Option Flag := all.find? (·.name == s)

/-- The flag with a shorthand. -/
def ofShorthand (c : Char) : Option Flag := all.find? (·.shorthand == c)

/-- How a flag is named in messages: shorthand and long name. -/
def title (f : Flag) : String := "-" ++ f.shorthand.toString ++ ", --" ++ f.name

/-- The name of a flag's kind of value in the usage text; a switch shows none. -/
def valueName (f : Flag) : String :=
  match f.kind with
  | .text => " string"
  | .number => " int"
  | .switch => ""

theorem ofName_name (f : Flag) : ofName f.name = some f := by
  cases f <;> rfl

end Flag

/-- The values the command line gave: a text, number or switch for each flag set, the last
setting of a flag winning, and the arguments that are no flag. -/
structure Options where
  config : String := ""
  help : Bool := false
  listen : Option String := none
  port : Option Int := none
  root : Option String := none
  verbose : Bool := false
  version : Bool := false
  args : List String := []
  deriving DecidableEq, Repr

/-- The state of the checker of underscores in a number: at its start, after a digit or base
prefix, after an underscore, or after anything else. -/
inductive Mark where
  | start | digit | underscore | other
  deriving DecidableEq, Repr

/-- Whether every underscore of a number stands between digits, a base prefix counting as a
digit. -/
def underscoresFit (s : Bytes) : Bool :=
  let s := if s.head? == some 43 || s.head? == some 45 then s.drop 1 else s
  let lower (c : Byte) := Byte.toLower c
  let prefixed := s.length ≥ 2 && s.head? == some 48 && [98, 111, 120].contains (lower (s.getD 1 0))
  let hex := prefixed && lower (s.getD 1 0) == 120
  let body := if prefixed then s.drop 2 else s
  let step (m : Option Mark) (c : Byte) : Option Mark :=
    m.bind fun m =>
      if Byte.isDigit c || (hex && 97 ≤ lower c && lower c ≤ 102) then some .digit
      else if c == 95 then (if m == .digit then some .underscore else none)
      else if m == .underscore then none
      else some .other
  match body.foldl step (some (if prefixed then .digit else .start)) with
  | some m => m != .underscore
  | none => false

/-- The value of digits in a base as an unsigned 64-bit number; no digits give zero. -/
def digitsValue (base : Nat) (s : Bytes) : Except Toml.NumberError Nat :=
  s.foldlM (fun n c => do
    match Toml.digitIn base c with
    | none => throw .invalid
    | some d =>
      if n ≥ Toml.maxUnsigned / base + 1 then throw .outOfRange
      let n1 := n * base + d
      if n1 > Toml.maxUnsigned then throw .outOfRange
      pure n1) 0

/-- Reads an unsigned number whose base its prefix gives: `0x`, `0o`, `0b`, or a leading zero
for octal, and decimal otherwise. -/
def unsignedLiteral (s : Bytes) : Except Toml.NumberError Nat := do
  if s.isEmpty then throw .invalid
  let lower := Byte.toLower (s.getD 1 0)
  let (base, body) :=
    if s.head? == some 48 then
      if s.length ≥ 3 && lower == 98 then (2, s.drop 2)
      else if s.length ≥ 3 && lower == 111 then (8, s.drop 2)
      else if s.length ≥ 3 && lower == 120 then (16, s.drop 2)
      else (8, s.drop 1)
    else (10, s)
  let n ← digitsValue base (body.filter (· != 95))
  if body.contains 95 && !underscoresFit s then throw .invalid
  pure n

/-- Reads a signed 64-bit integer literal. -/
def integerLiteral (s : Bytes) : Except Toml.NumberError Int :=
  match s with
  | [] => .error .invalid
  | c :: rest =>
    let (neg, digits) := if c == 43 then (false, rest) else if c == 45 then (true, rest) else (false, s)
    match unsignedLiteral digits with
    | .error e => .error e
    | .ok u =>
      if !neg && u ≥ 9223372036854775808 then .error .outOfRange
      else if neg && u > 9223372036854775808 then .error .outOfRange
      else .ok (if neg then -(u : Int) else u)

/-- Reads a boolean word. -/
def booleanWord (s : String) : Option Bool :=
  if ["1", "t", "T", "TRUE", "true", "True"].contains s then some true
  else if ["0", "f", "F", "FALSE", "false", "False"].contains s then some false
  else none

/-- Sets a flag from the text of its value. -/
def Options.assign (o : Options) (f : Flag) (value : String) : Except String Options :=
  let refuse (reason : String) : String :=
    "invalid argument " ++ Text.Quoted.ofBytes (Bytes.ofString value) ++ " for " ++
      Text.Quoted.ofBytes (Bytes.ofString f.title) ++ " flag: " ++ reason
  let switch : Except String Bool :=
    match booleanWord value with
    | some b => .ok b
    | none => .error (refuse (Toml.NumberError.invalid.text "ParseBool" (Bytes.ofString value)))
  match f with
  | .config => .ok { o with config := value }
  | .listen => .ok { o with listen := some value }
  | .root => .ok { o with root := some value }
  | .port =>
    match integerLiteral (Bytes.ofString value) with
    | .ok n => .ok { o with port := some n }
    | .error e => .error (refuse (e.text "ParseInt" (Bytes.ofString value)))
  | .help => switch.map fun b => { o with help := b }
  | .verbose => switch.map fun b => { o with verbose := b }
  | .version => switch.map fun b => { o with version := b }

/-- A flag read without its value, which the next argument gives, with the text of the failure
when there is no next argument. -/
abbrev Awaiting := Option (Flag × String)

/-- Reads a run of shorthands. A flag that needs a value and has none in the run waits for the
next argument. -/
def shorthands (o : Options) : List Char → Except String (Options × Awaiting)
  | [] => .ok (o, none)
  | c :: cs =>
    match Flag.ofShorthand c with
    | none =>
      .error ("unknown shorthand flag: " ++ Text.Quoted.ofCode c.toNat ++ " in -" ++ String.ofList (c :: cs))
    | some f =>
      match cs with
      | '=' :: v :: vs => (o.assign f (String.ofList (v :: vs))).map (·, none)
      | _ =>
        if f.kind == FlagKind.switch then
          match o.assign f "true" with
          | .ok o => shorthands o cs
          | .error e => .error e
        else if !cs.isEmpty then (o.assign f (String.ofList cs)).map (·, none)
        else .ok (o, some (f, "flag needs an argument: " ++ Text.Quoted.ofCode c.toNat ++ " in -" ++ String.ofList [c]))

/-- Reads a long flag `--name` or `--name=value`. A flag that needs a value and has none waits
for the next argument. -/
def longFlag (o : Options) (arg : String) : Except String (Options × Awaiting) :=
  let body := String.ofList (arg.toList.drop 2)
  if body.isEmpty || body.startsWith "-" || body.startsWith "=" then
    .error ("bad flag syntax: " ++ arg)
  else
    let (name, value) := match body.splitOn "=" with
      | n :: v :: vs => (n, some ("=".intercalate (v :: vs)))
      | _ => (body, none)
    match Flag.ofName name with
    | none => .error ("unknown flag: --" ++ name)
    | some f =>
      match value with
      | some v => (o.assign f v).map (·, none)
      | none =>
        if f.kind == FlagKind.switch then (o.assign f "true").map (·, none)
        else .ok (o, some (f, "flag needs an argument: " ++ arg))

/-- Reads the arguments after the options read so far, the first of them being the value of
the flag waiting, if one is. -/
def parseFrom (o : Options) (waiting : Awaiting) : List String → Except String Options
  | [] =>
    match waiting with
    | some (_, missing) => .error missing
    | none => .ok o
  | arg :: rest =>
    match waiting with
    | some (f, _) =>
      match o.assign f arg with
      | .ok o => parseFrom o none rest
      | .error e => .error e
    | none =>
      if arg.length ≤ 1 || !arg.startsWith "-" then parseFrom { o with args := o.args ++ [arg] } none rest
      else if arg == "--" then .ok { o with args := o.args ++ rest }
      else
        let read := if arg.startsWith "--" then longFlag o arg else shorthands o (arg.toList.drop 1)
        match read with
        | .ok (o, w) => parseFrom o w rest
        | .error e => .error e

/-- Reads a command line, without the program's name. A failure gives its text. -/
def parseFlags (args : List String) : Except String Options := parseFrom {} none args

/-- The usage text of a program. -/
def usageText (program : String) : String :=
  let heads := Flag.all.map fun f => "  " ++ f.title ++ f.valueName
  let width := (heads.map String.length).foldl max 0 + 1
  let lines := (Flag.all.zip heads).map fun (f, h) =>
    h ++ " " ++ String.ofList (List.replicate (width - h.length) ' ') ++ " " ++ f.usage ++ "\n"
  "Usage of " ++ program ++ ":\n" ++ String.join lines

end Command

end StaticHttp
