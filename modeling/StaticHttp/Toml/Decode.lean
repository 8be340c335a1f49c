import StaticHttp.Toml.Parse
import StaticHttp.Toml.Number
import StaticHttp.Toml.Seen

/-!
# Decoding TOML into a fixed shape

A document is decoded into a target of known shape: records with named fields, maps from names
to strings, and strings, integers and Booleans. Expressions are decoded in order as they are
read, so a decoding failure is reported before a syntax failure further down. A key whose field
is unknown is left out and remembered; when the whole document decoded otherwise, the decoding
fails in strict mode. After a table header whose field is unknown, the keys up to the next
header are left out unread.

A string, integer or array of the wrong type is reported with the innermost record field on its
way, as a record type, a field and the field's type; a float of the wrong type with the kind of
the place only. A date or time stored into a place of another type, and a table header that
leads through a plain value, stop the decoding outright.

Main statements:
* `Toml.Data.set_nil`: setting at the empty path replaces the whole value.
-/

namespace StaticHttp

namespace Toml

/-- The shape of a decoding target. Each record field has its key, its field name and its
shape. -/
inductive Shape where
  | text
  | integer
  | boolean
  | record (typeName : String) (fields : List (String × String × Shape))
  | textMap (typeName : String)
  deriving Repr

namespace Shape

/-- The type a shape is shown as. -/
def typeName : Shape → String
  | text => "string"
  | integer => "int"
  | boolean => "bool"
  | record t _ => t
  | textMap t => t

/-- The kind a shape is shown as. -/
def kindName : Shape → String
  | text => "string"
  | integer => "int"
  | boolean => "bool"
  | record _ _ => "struct"
  | textMap _ => "map"

end Shape

/-- The field a key names, matching its name as it is or in lower case. -/
def fieldFor (fields : List (String × String × Shape)) (k : Bytes) :
    Option (String × String × Shape) :=
  let name := Utf8.lossy k
  let lower := foldName name
  (fields.find? (·.1 == name)).orElse fun _ => fields.find? (·.1 == lower)

/-- A decoded value, of the same form as its shape. Record fields are listed by field name,
map entries in the order they were first set. -/
inductive Data where
  | text (s : Bytes)
  | integer (n : Int)
  | boolean (b : Bool)
  | record (fields : List (String × Data))
  | textMap (entries : List (Bytes × Bytes))
  deriving Repr

/-- A step into a value: a record field by its field name, or a map entry by its key. -/
inductive Step where
  | field (name : String)
  | entry (key : Bytes)
  deriving DecidableEq, Repr

/-- Sets a map entry, keeping its place when it is there already. -/
def upsert (es : List (Bytes × Bytes)) (k v : Bytes) : List (Bytes × Bytes) :=
  if es.any (·.1 == k) then es.map fun (k', v') => if k' == k then (k', v) else (k', v')
  else es ++ [(k, v)]

namespace Data

/-- Replaces the part of a value at a path. A map entry is set only to a string. -/
def set : List Step → Data → Data → Data
  | [], _, v => v
  | .field f :: rest, .record fs, v => .record (fs.map fun (n, d) => if n == f then (n, set rest d v) else (n, d))
  | [.entry k], .textMap es, .text s => .textMap (upsert es k s)
  | _, d, _ => d

/-- The part of a value at a path. -/
def get? : List Step → Data → Option Data
  | [], d => some d
  | .field f :: rest, .record fs => (fs.find? (·.1 == f)).bind fun (_, d) => get? rest d
  | [.entry k], .textMap es => (es.find? (·.1 == k)).map fun (_, v) => .text v
  | _, _ => none

theorem set_nil (d v : Data) : set [] d v = v := rfl

end Data

/-- The record field a failure is reported with: the record's type, the field's name and its
type. -/
structure Context where
  record : String
  field : String
  fieldType : String
  deriving Repr

/-- A place values are decoded into: its path, its shape, and the innermost record field on
the way. -/
structure Target where
  path : List Step
  shape : Shape
  context : Option Context

/-- A decoding failure: one at a place in the document, one with only a text, or one that
stops the program outright, as storing a date or time into a place of another type does, or a
table header that leads through a plain value. -/
inductive DecodeError where
  | located (f : Failure)
  | plain (text : String)
  | halted (text : String)
  deriving Repr

/-- The text of a value of the wrong type. -/
def mismatch (t : Target) (what : String) : String :=
  match t.context with
  | some c => "cannot decode TOML " ++ what ++ " into struct field " ++ c.record ++ "." ++ c.field ++ " of type " ++ c.fieldType
  | none => "cannot decode TOML " ++ what ++ " into a Go value of type " ++ t.shape.typeName

/-- The type a moment of each kind is stored as. -/
def Moment.typeName : Moment → String
  | .dateTime => "time.Time"
  | .localDateTime => "toml.LocalDateTime"
  | .localDate => "toml.LocalDate"
  | .localTime => "toml.LocalTime"

/-- The place a key leads to from a target, or none when a record has no field for it. -/
def resolveKey (t : Target) : List KeyPart → Except DecodeError (Option Target)
  | [] => .ok (some t)
  | k :: rest =>
    match t.shape with
    | .record name fields =>
      match fieldFor fields k.name with
      | none => .ok none
      | some (_, go, sh) => resolveKey ⟨t.path ++ [.field go], sh, some ⟨name, go, sh.typeName⟩⟩ rest
    | .textMap _ =>
      if rest.isEmpty then .ok (some ⟨t.path ++ [.entry k.name], .text, t.context⟩)
      else .error (.plain "unhandled kv part: string")
    | sh => .error (.plain ("unhandled kv part: " ++ sh.kindName))

/-- The place a table header leads to, or none when a record has no field for it; `array`
marks an array table header, which no place here can take. -/
def resolveHeader (array : Bool) (t : Target) : List KeyPart → Except DecodeError (Option Target)
  | [] =>
    if array then .error (.plain ("toml: " ++ mismatch t "array table")) else .ok (some t)
  | k :: rest =>
    match t.shape with
    | .record name fields =>
      match fieldFor fields k.name with
      | none => .ok none
      | some (_, go, sh) => resolveHeader array ⟨t.path ++ [.field go], sh, some ⟨name, go, sh.typeName⟩⟩ rest
    | .textMap _ =>
      if !rest.isEmpty then .error (.halted "unhandled part: string")
      else if array then .error (.plain ("toml: " ++ mismatch t "array table"))
      else .ok (some ⟨t.path ++ [.entry k.name], .text, t.context⟩)
    | sh => .error (.halted ("unhandled part: " ++ sh.kindName))

/-- The state of a decoding: the value so far, the keys seen, whether a key was left out, and
the table the next keys go to, none while keys are left out after an unknown header. -/
structure Decoder where
  data : Data
  seen : Seen := {}
  missing : Bool := false
  table : Option Target

/-- Decodes a value into a place. -/
def assign (t : Target) (v : Value) (d : Decoder) : Nat → Except DecodeError Decoder
  | 0 => .ok d
  | fuel + 1 =>
    let at_ (o : Nat) (msg : String) : Except DecodeError Decoder := .error (.located ⟨o, msg⟩)
    let put (x : Data) : Except DecodeError Decoder := .ok { d with data := d.data.set t.path x }
    let number {α : Type} (r : Except Failure α) : Except DecodeError α := r.mapError .located
    match v with
    | .string s o => match t.shape with
      | .text => put (.text s)
      | _ => at_ o (mismatch t "string")
    | .integer raw o => do
      let n ← number (integerValue o raw)
      match t.shape with
      | .integer => put (.integer n)
      | _ => at_ o (mismatch t "integer")
    | .float raw o => do
      number (floatValue o raw)
      at_ o ("float cannot be assigned to " ++ t.shape.kindName)
    | .boolean b o => match t.shape with
      | .boolean => put (.boolean b)
      | _ => at_ o ("cannot assign boolean to a " ++ (if b then "true" else "false"))
    | .moment kind raw o => do
      number (momentValue kind o raw)
      .error (.halted ("reflect.Set: value of type " ++ kind.typeName ++ " is not assignable to type " ++
        t.shape.typeName))
    | .array _ _ => .error (.plain ("toml: " ++ mismatch t "array"))
    | .inlineTable members o => match t.shape with
      | .record _ _ | .textMap _ => members.foldlM (fun d (k, w) => member t k w d fuel) d
      | sh => at_ o ("cannot store inline table in Go type " ++ sh.kindName)
where
  /-- Decodes a key and its value from a place. -/
  member (t : Target) (k : Key) (w : Value) (d : Decoder) (fuel : Nat) : Except DecodeError Decoder := do
    match ← resolveKey t k with
    | none => return { d with missing := true }
    | some t' => assign t' w d fuel

/-- Decodes one expression. -/
def Decoder.step (root : Target) (fuel : Nat) (d : Decoder) (e : Expr) : Except DecodeError Decoder := do
  match e with
  | .keyValue k v =>
    match d.table with
    | none => return d
    | some t =>
      let seen ← (d.seen.keyValue k v fuel).mapError .plain
      let d := { d with seen := seen }
      match ← resolveKey t k with
      | none => return { d with missing := true }
      | some t' => assign t' v d fuel
  | .table k =>
    let seen ← (d.seen.table k).mapError .plain
    let d := { d with seen := seen }
    match ← resolveHeader false root k with
    | none => return { d with missing := true, table := none }
    | some t =>
      let opened := (d.data.get? t.path).isNone
      let d := if opened then { d with data := d.data.set t.path (.text []) } else d
      return { d with table := some t }
  | .arrayTable k =>
    let seen ← (d.seen.arrayTable k).mapError .plain
    let d := { d with seen := seen }
    match ← resolveHeader true root k with
    | none => return { d with missing := true, table := none }
    | some t => return { d with table := some t }

/-- How decoding a document ended. -/
inductive Outcome where
  /-- The document decoded, into this value. -/
  | decoded (d : Data)
  /-- A failure while reading or decoding. -/
  | failed (e : DecodeError)
  /-- Everything decoded but some keys name no field. -/
  | strict
  deriving Repr

/-- Decodes a document into a value of a shape, starting from `initial`. -/
def decode (shape : Shape) (initial : Data) (doc : Bytes) : Outcome :=
  let root : Target := ⟨[], shape, none⟩
  let (exprs, failure) := document doc
  match exprs.foldlM (Decoder.step root (doc.length + 1)) { data := initial, table := some root } with
  | .error e => .failed e
  | .ok d =>
    match failure with
    | some f => .failed (.located f)
    | none => if d.missing then .strict else .decoded d.data

end Toml

end StaticHttp
