import StaticHttp.Content.Table

/-!
# Generations

A generation is one complete snapshot of the content tree: a table of entries and the number
it was published under, counting from one. The server answers every request from one
generation, and there may be none yet.

Main statements:
* `Generation.lookup_none`: no generation holds any path.
-/

namespace StaticHttp

namespace Content

/-- A published snapshot of the content tree: its number, the time it was loaded in seconds,
and its table. -/
structure Generation where
  id : Nat
  loaded : Int
  table : Table
  deriving Repr

namespace Generation

/-- The entry stored under a path in a generation, if there is one. -/
def lookup (g : Option Generation) (path : Bytes) : Option Entry :=
  g.bind fun g => g.table.find? path

/-- The number of entries. -/
def size (g : Option Generation) : Nat := (g.map fun g => g.table.count).getD 0

/-- The number of slots. -/
def capacity (g : Option Generation) : Nat := (g.map fun g => g.table.capacity).getD 0

/-- The total content size in bytes. -/
def bytes (g : Option Generation) : Nat :=
  (g.map fun g => (g.table.entries.map Entry.size).foldr (· + ·) 0).getD 0

theorem lookup_none (path : Bytes) : lookup none path = none := rfl

end Generation

end Content

end StaticHttp
