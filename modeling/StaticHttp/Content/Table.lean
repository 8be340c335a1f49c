import StaticHttp.Content.Entry
import StaticHttp.Content.Capacity

/-!
# The path table

Entries are kept in an open-addressing table keyed by path. The slot array has a power-of-two
length, its capacity. An entry's home slot is its hash modulo the capacity; a lookup probes
from there one slot at a time, wrapping from the last slot to the first, and misses at an
empty slot or once it has come round to where it started. Adding an entry replaces one with
the same path; when the path is new and the table would then have no empty slot left, the
table doubles first, as often as needed. Doubling re-places every entry in slot order.

Main statements:
* `Table.capacity_empty`: a new table has at least two slots and a power-of-two capacity.
-/

namespace StaticHttp

namespace Content

/-- An open-addressing table of entries: the slots, the number of entries placed through it,
and the number of times it has doubled. -/
structure Table where
  slots : Array (Option Entry)
  count : Nat
  grows : Nat
  deriving Repr

namespace Table

/-- The number of slots. -/
def capacity (t : Table) : Nat := t.slots.size

/-- An empty table with room for `c` slots: the next power of two, and at least two. -/
def empty (c : Int) : Table := ⟨Array.replicate (max 2 (nextPowerOfTwo c)) none, 0, 0⟩

/-- The slot after `i`, wrapping at the end. -/
def nextSlot (t : Table) (i : Nat) : Nat := (i + 1) % t.capacity

/-- The home slot of a hash. -/
def home (t : Table) (h : UInt64) : Nat := h.toNat % t.capacity

/-- Probes from slot `i` for an entry with hash `h` and path `path`, for at most `k` more
slots. -/
def probe (t : Table) (h : UInt64) (path : Bytes) : Nat → Nat → Option Entry
  | 0, _ => none
  | k + 1, i =>
    match t.slots[i]? with
    | some (some e) => if e.hash == h && e.path == path then some e else probe t h path k (t.nextSlot i)
    | _ => none

/-- The entry stored under a path. -/
def find? (t : Table) (path : Bytes) : Option Entry :=
  let h := pathHash path
  probe t h path t.capacity (t.home h)

/-- Stores `e` in the first slot from `i` on that is empty or holds the same path, counting
it when the slot was empty; at most `k` slots are tried. -/
def placeFrom (e : Entry) : Nat → Nat → Table → Table
  | 0, _, t => t
  | k + 1, i, t =>
    match t.slots[i]? with
    | some none => { t with slots := t.slots.set! i (some e), count := t.count + 1 }
    | some (some cur) =>
      if cur.hash == e.hash && cur.path == e.path then { t with slots := t.slots.set! i (some e) }
      else placeFrom e k (t.nextSlot i) t
    | none => t

/-- Stores `e` by probing from its home slot. -/
def place (t : Table) (e : Entry) : Table := placeFrom e t.capacity (t.home e.hash) t

/-- The entries in slot order. -/
def entries (t : Table) : List Entry := t.slots.toList.filterMap id

/-- Doubles the slot array and places every entry again, in slot order. -/
def grow (t : Table) : Table :=
  (t.entries.foldl place ⟨Array.replicate (2 * t.capacity) none, 0, t.grows + 1⟩)

/-- Doubles the table until it has room for one more entry with a slot to spare, for at most
`k` doublings. -/
def growForOneMore : Nat → Table → Table
  | 0, t => t
  | k + 1, t => if t.count + 1 ≥ t.capacity then growForOneMore k t.grow else t

/-- Adds an entry, replacing one with the same path; a new path first makes room. -/
def insert (t : Table) (e : Entry) : Table :=
  let t := if (t.find? e.path).isNone then growForOneMore (t.count + 2) t else t
  t.place e

/-- Stores an entry straight into slot `i`, without counting it. -/
def setSlot (t : Table) (i : Nat) (e : Entry) : Table := { t with slots := t.slots.set! i (some e) }

/-- The occupied slots with their entries, in slot order. -/
def occupied (t : Table) : List (Nat × Entry) :=
  (t.slots.toList.zipIdx.filterMap fun p => p.1.map fun e => (p.2, e))

theorem capacity_empty (c : Int) :
    2 ≤ (empty c).capacity ∧ ∃ k, (empty c).capacity = Nat.pow 2 k := by
  obtain ⟨k, hk⟩ := nextPowerOfTwo_isPow c
  refine ⟨by simp only [empty, capacity, Array.size_replicate]; exact Nat.le_max_left 2 _, ?_⟩
  simp only [empty, capacity, Array.size_replicate, hk]
  by_cases h : 2 ≤ Nat.pow 2 k
  · exact ⟨k, by omega⟩
  · exact ⟨1, by show max 2 (Nat.pow 2 k) = 2; omega⟩

end Table

/-- A table built from entries: sized to hold them all without growing, then filled in
order. -/
def Table.build (es : List Entry) : Table := es.foldl insert (empty (sizeFor es.length))

end Content

end StaticHttp
