import StaticHttp.Content.Cache

/-!
# A cache shared by many goroutines

Readers take the live generation with one atomic load and look paths up in it. A reload builds
a new generation off to the side and publishes it with one atomic store, so a reader never sees
a table half built. Calls of `Load` that overlap share one rebuild: the first caller runs it,
and a caller that arrives while it runs waits for it and gets its outcome. A rebuild reads the
content tree, builds the table, takes the next number, publishes the generation, calls the load
hook with its outcome, and then hands the outcome to every caller that waited for it; a failure
is handed out as `failed to load cache: …`. The content tree may change at any moment in
between.

`Shared` is the cache with the rebuild in flight, the tree as it stands, and the record of what
was published and handed out. `Shared.step` is one atomic step of one goroutine, or a change of
the tree, and a run is the steps of all goroutines in one interleaving. Looking a path up, or
taking the live generation, changes nothing, so it can happen between any two steps: it answers
from the cache as it then stands (`Shared.find`, `Shared.live`).

Main statements:
* `Shared.rebuild_uninterrupted`: a rebuild whose steps run back to back publishes what
  `Cache.load` does.
-/

namespace StaticHttp

namespace Content

/-- Where the rebuild in flight has got to. -/
inductive Stage where
  /-- It was started and has not read the tree yet. -/
  | reading
  /-- It read these entries from the tree and built their table off to the side. -/
  | built (entries : List Entry)
  /-- Its generation, built from these entries, took the next number. -/
  | numbered (entries : List Entry) (g : Generation)
  /-- It is over, with this outcome, and has not called the load hook yet. -/
  | over (r : Except LoadError Generation)
  /-- It called the load hook with this outcome. -/
  | reported (r : Except LoadError Generation)

/-- The one rebuild in flight, and the goroutines waiting for it in the order they called. -/
structure Flight where
  stage : Stage
  callers : List Nat

/-- An atomic step of one goroutine, or a change of the content tree. -/
inductive Event where
  /-- Goroutine `k` calls `Load`: it starts a rebuild, or joins the one in flight. -/
  | load (k : Nat)
  /-- The rebuild reads the tree as it now stands and builds the table. -/
  | read
  /-- The rebuild's generation takes the next number, stamped with the time `now`. -/
  | number (now : Int)
  /-- The rebuild publishes its generation. -/
  | swap
  /-- The rebuild calls the load hook with its outcome. -/
  | report
  /-- The rebuild ends and every goroutine waiting for it returns with its outcome. -/
  | finish
  /-- The content tree becomes `t`. -/
  | change (t : Files.Tree)

/-- The outcome of a rebuild as the load hook and the callers of `Load` get it. -/
def Cache.outcome (r : Except LoadError Generation) : Except String Generation :=
  r.mapError Cache.failureText

/-- A cache shared by goroutines: the cache, the content tree as it stands, the rebuild in
flight, and what happened so far: the generations published, in order, each with the entries
its rebuild read; the outcomes the load hook was called with; and, for each rebuild that
ended, the goroutines it returned to and what they got. -/
structure Shared where
  cache : Cache
  tree : Files.Tree
  flight : Option Flight := none
  history : List (Generation × List Entry) := []
  hooked : List (Except String Generation) := []
  answered : List (List Nat × Except String Generation) := []

namespace Shared

/-- A cache made for a root and a limit, over a tree, before any goroutine uses it. -/
def start (c : Cache) (t : Files.Tree) : Shared := { cache := c, tree := t }

/-- What `Find` answers now: the entry for the path in the live generation. -/
def find (s : Shared) (path : Bytes) : Option Entry := Generation.lookup s.cache.current path

/-- What `Current` answers now: the live generation. -/
def live (s : Shared) : Option Generation := s.cache.current

/-- The rebuild in flight moves to a new stage. -/
def advance (s : Shared) (f : Flight) (st : Stage) : Shared :=
  { s with flight := some { f with stage := st } }

/-- One step. A step whose goroutine cannot take it now, such as publishing before a number
was taken, leaves everything as it was. -/
def step (s : Shared) : Event → Shared
  | .load k =>
    match s.flight with
    | none => { s with flight := some ⟨.reading, [k]⟩ }
    | some f => { s with flight := some { f with callers := f.callers ++ [k] } }
  | .read =>
    match s.flight with
    | some f =>
      match f.stage with
      | .reading =>
        match (loadTree s.tree s.cache.root s.cache.maxEntries).1 with
        | .ok entries => s.advance f (.built entries)
        | .error e => s.advance f (.over (.error e))
      | _ => s
    | none => s
  | .number now =>
    match s.flight with
    | some f =>
      match f.stage with
      | .built entries =>
        let g : Generation := ⟨s.cache.published + 1, now, Table.build entries⟩
        { s.advance f (.numbered entries g) with cache := { s.cache with published := g.id } }
      | _ => s
    | none => s
  | .swap =>
    match s.flight with
    | some f =>
      match f.stage with
      | .numbered entries g =>
        { s.advance f (.over (.ok g)) with
          cache := { s.cache with current := some g }
          history := s.history ++ [(g, entries)] }
      | _ => s
    | none => s
  | .report =>
    match s.flight with
    | some f =>
      match f.stage with
      | .over r => { s.advance f (.reported r) with hooked := s.hooked ++ [Cache.outcome r] }
      | _ => s
    | none => s
  | .finish =>
    match s.flight with
    | some f =>
      match f.stage with
      | .reported r =>
        { s with flight := none, answered := s.answered ++ [(f.callers, Cache.outcome r)] }
      | _ => s
    | none => s
  | .change t => { s with tree := t }

/-- The steps of all goroutines, in one interleaving. -/
def run (s : Shared) (es : List Event) : Shared := es.foldl step s

/-- **A rebuild run without interruption is `Cache.load`.** Reading the tree, taking the next
number and publishing, one right after the other, leave the cache and the outcome that
`Cache.load` gives over the same tree. -/
theorem rebuild_uninterrupted (s : Shared) (callers : List Nat) (now : Int)
    (h : s.flight = some ⟨.reading, callers⟩) :
    let s' := (s.run [.read, .number now, .swap])
    s'.cache = (s.cache.load s.tree now).cache ∧
      s'.flight = some ⟨.over (s.cache.load s.tree now).result, callers⟩ := by
  simp only [run, List.foldl, step, h]
  unfold Cache.load
  rcases (loadTree s.tree s.cache.root s.cache.maxEntries) with ⟨_ | entries, logs⟩ <;>
    simp [advance]

end Shared

end Content

end StaticHttp
