import StaticHttp.Content.Load
import StaticHttp.Content.Generation

/-!
# The content cache

A cache serves the tree under one root. It publishes generations: each successful load builds
a new table from the whole tree and makes it current under the next number; a failed load
leaves the current generation and the count as they were. Before the first successful load
there is no generation.

Main statements:
* `Cache.load_error_current`: a failed load keeps the current generation.
-/

namespace StaticHttp

namespace Content

/-- A cache: its root, its entry limit, the current generation and the count of generations
published. -/
structure Cache where
  root : String
  maxEntries : Nat
  current : Option Generation := none
  published : Nat := 0
  deriving Repr

/-- Why a cache could not be made. -/
inductive SetupError where
  | noRoot
  | badMax (n : Int)
  deriving DecidableEq, Repr

/-- The text of a setup failure. -/
def SetupError.message : SetupError → String
  | .noRoot => "content root not provided"
  | .badMax n => "invalid maximum cache size " ++ toString n

namespace Cache

/-- A cache for a root and an entry limit; nothing is loaded yet. -/
def new (root : String) (max : Int) : Except SetupError Cache :=
  if root.isEmpty then .error .noRoot
  else if max < 1 then .error (.badMax max)
  else .ok { root, maxEntries := max.toNat }

/-- The text of a failed load. -/
def failureText (e : LoadError) : String := "failed to load cache: " ++ e.message

/-- The result of a load: the cache after it, the new generation or the failure, and the log
entries written. -/
structure Loaded where
  cache : Cache
  result : Except LoadError Generation
  logs : List Log.Entry

/-- Loads the tree afresh and publishes it, stamped with the time `now`. -/
def load (c : Cache) (t : Files.Tree) (now : Int) : Loaded :=
  let start := Log.Entry.plain .info ("Loading cache from " ++ c.root)
  match loadTree t c.root c.maxEntries with
  | (.error e, logs) => ⟨c, .error e, start :: logs⟩
  | (.ok entries, logs) =>
    let g : Generation := ⟨c.published + 1, now, Table.build entries⟩
    let live := some g
    let empty := if g.table.count = 0 then
        [Log.Entry.plain .warn ("content root " ++ c.root ++ " holds no files")] else []
    let summary := Log.Entry.plain .info ("cache generation " ++ toString g.id ++ ": " ++
      toString (Generation.size live) ++ " files, " ++ toString (Generation.capacity live) ++
      " slots, " ++ toString (Generation.bytes live) ++ " bytes in 0s")
    let retired := match c.current with
      | some old => [Log.Entry.plain .debug ("retired cache generation " ++ toString old.id)]
      | none => []
    ⟨{ c with current := some g, published := g.id }, .ok g,
      start :: logs ++ empty ++ [summary] ++ retired⟩

theorem load_error_current (c : Cache) (t : Files.Tree) (now : Int) (e : LoadError)
    (h : (c.load t now).result = .error e) : (c.load t now).cache = c := by
  unfold load at h ⊢
  split
  · rfl
  · rename_i heq
    rw [heq] at h
    simp at h

end Cache

end Content

end StaticHttp
