import StaticHttp.Toml.Syntax

/-!
# Keys already defined

A TOML document may define each key once. The tracker records every table and key seen, with
whether a table was opened by its own header (explicit) or only by a dotted key, and rejects a
key defined twice, a table header repeated, and a key that would turn a value into a table or
a table into a value. Sub-tables made by dotted keys become explicit once the next header is
read, so they cannot be reopened by a header later. The members of an inline table are checked
on their own, since an inline table is complete where it stands.
-/

namespace StaticHttp

namespace Toml

/-- What a key names. -/
inductive SeenKind where
  | table | arrayTable | value
  deriving DecidableEq, Repr

/-- The name of a kind in messages. -/
def SeenKind.name : SeenKind → String
  | .table => "table"
  | .arrayTable => "array table"
  | .value => "value"

/-- A key seen: its parent's index, its name, what it names, whether a header opened it, and
whether a dotted key made it. Removed entries have no parent and are not found again. -/
structure SeenEntry where
  parent : Option Nat
  name : Bytes
  kind : SeenKind
  explicit : Bool
  dotted : Bool
  deriving DecidableEq, Repr

/-- The keys seen so far, the root first, and the table the next keys belong to. -/
structure Seen where
  entries : Array SeenEntry := #[⟨none, [], .table, false, false⟩]
  current : Nat := 0
  deriving Repr

namespace Seen

/-- The child of an entry with a name. -/
def find? (s : Seen) (parent : Nat) (k : Bytes) : Option Nat :=
  s.entries.findIdx? fun e => e.parent == some parent && e.name == k

/-- Adds a child to an entry and gives its index. -/
def create (s : Seen) (parent : Nat) (k : Bytes) (kind : SeenKind) (explicit dotted : Bool) :
    Seen × Nat :=
  ({ s with entries := s.entries.push ⟨some parent, k, kind, explicit, dotted⟩ }, s.entries.size)

/-- Changes one entry. -/
def modifyEntry (s : Seen) (i : Nat) (f : SeenEntry → SeenEntry) : Seen :=
  { s with entries := s.entries.modify i f }

/-- Whether an entry lies below another. -/
def below (s : Seen) (ancestor : Nat) : Nat → Nat → Bool
  | 0, _ => false
  | fuel + 1, i =>
    match (s.entries[i]?).bind (·.parent) with
    | none => false
    | some p => p == ancestor || below s ancestor fuel p

/-- Makes the tables below an entry that dotted keys made explicit. -/
def settle (s : Seen) (idx : Nat) : Seen :=
  { s with entries := s.entries.mapIdx fun i e =>
      if e.dotted && s.below idx s.entries.size i then { e with explicit := true, dotted := false } else e }

/-- Removes every entry below an entry. -/
def clear (s : Seen) (idx : Nat) : Seen :=
  { s with entries := s.entries.mapIdx fun i e =>
      if s.below idx s.entries.size i then { e with parent := none } else e }

/-- The text of a key name. -/
def nameText (k : Bytes) : String := Utf8.lossy k

/-- Walks the parts of a header's key before its last, making tables where none are. -/
def headerPath (s : Seen) : Nat → List KeyPart → Except String (Seen × Nat)
  | parent, [] => .ok (s, parent)
  | parent, k :: rest =>
    match s.find? parent k.name with
    | none => let (s, i) := s.create parent k.name .table false false; headerPath s i rest
    | some i =>
      let e := s.entries[i]?.getD ⟨none, [], .table, false, false⟩
      if e.kind == .value then
        .error ("toml: expected " ++ nameText k.name ++ " to be a table, not a " ++ e.kind.name)
      else headerPath s i rest

/-- Checks a table header. -/
def table (s : Seen) (key : Key) : Except String Seen := do
  let s := s.settle s.current
  let (s, parent) ← s.headerPath 0 key.dropLast
  let k := (key.getLast?.map (·.name)).getD []
  match s.find? parent k with
  | some i =>
    let e := s.entries[i]?.getD ⟨none, [], .table, false, false⟩
    if e.kind != .table then
      throw ("toml: key " ++ nameText k ++ " should be a table, not a " ++ e.kind.name)
    if e.explicit then throw ("toml: table " ++ nameText k ++ " already exists")
    return { s.modifyEntry i (fun e => { e with explicit := true }) with current := i }
  | none =>
    let (s, i) := s.create parent k .table true false
    return { s with current := i }

/-- Checks an array table header. -/
def arrayTable (s : Seen) (key : Key) : Except String Seen := do
  let s := s.settle s.current
  let (s, parent) ← s.headerPath 0 key.dropLast
  let k := (key.getLast?.map (·.name)).getD []
  match s.find? parent k with
  | none =>
    let (s, i) := s.create parent k .arrayTable true false
    return { s with current := i }
  | some i =>
    let e := s.entries[i]?.getD ⟨none, [], .table, false, false⟩
    if e.kind != .arrayTable then
      throw ("toml: key " ++ e.kind.name ++ " already exists as a " ++ nameText k ++
        ",  but should be an array table")
    return { s.clear i with current := i }

mutual

/-- Checks a key and its value from the current table. -/
def keyValue (s : Seen) (key : Key) (v : Value) : Nat → Except String Seen
  | 0 => .ok s
  | fuel + 1 => do
    let (s, leaf) ← keyPath s s.current key
    let s := s.modifyEntry leaf fun e => { e with kind := .value }
    match v with
    | .inlineTable members _ => do let _ ← members.foldlM (fun t (k, w) => keyValue t k w fuel) {}
    | .array items _ => items.forM fun w => element w fuel
    | _ => pure ()
    return s

/-- Checks the inline tables inside an array's item. -/
def element (v : Value) : Nat → Except String Unit
  | 0 => .ok ()
  | fuel + 1 =>
    match v with
    | .inlineTable members _ => do let _ ← members.foldlM (fun t (k, w) => keyValue t k w fuel) {}
    | .array items _ => items.forM fun w => element w fuel
    | _ => .ok ()

/-- Walks the parts of a key, making tables where none are, and gives the last part's
entry. -/
def keyPath (s : Seen) (parent : Nat) : List KeyPart → Except String (Seen × Nat)
  | [] => .ok (s, parent)
  | k :: rest =>
    match s.find? parent k.name with
    | none => let (s, i) := s.create parent k.name .table false true; keyPath s i rest
    | some i =>
      let e := s.entries[i]?.getD ⟨none, [], .table, false, false⟩
      if rest.isEmpty then .error ("toml: key " ++ nameText k.name ++ " is already defined")
      else if e.kind != .table then
        .error ("toml: expected " ++ nameText k.name ++ " to be a table, not a " ++ e.kind.name)
      else if e.explicit then
        .error ("toml: cannot redefine table " ++ nameText k.name ++ " that has already been explicitly defined")
      else keyPath s i rest

end

end Seen

end Toml

end StaticHttp
