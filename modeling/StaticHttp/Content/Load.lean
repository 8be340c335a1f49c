import StaticHttp.Files.Tree
import StaticHttp.Content.Entry
import StaticHttp.Log.Basic

/-!
# Loading the content tree

The content root is resolved through its symbolic links and must be a directory. Its tree is
walked in lexical order. Names beginning with a dot are skipped, and a dot directory with all
below it. A symbolic link is followed to what it names: a directory there is not entered, and
anything else is read as a file. Other files that are not regular, such as named pipes, are
skipped. Each file read becomes an entry keyed by its path below the root, with a leading
slash. One directory that cannot be listed or one file that cannot be read fails the whole
load, and so does a file beyond the maximum count.

Main statements:
* `LoadError.isTooMany_iff`: only the entry limit gives the too-many-files failure.
-/

namespace StaticHttp

namespace Content

open Files

/-- Why the content tree could not be loaded. -/
inductive LoadError where
  /-- The root's links could not be resolved. -/
  | resolveRoot (root : String) (cause : String)
  /-- The resolved root could not be looked at. -/
  | statRoot (e : PathError)
  /-- The root is no directory. -/
  | notDirectory (root : String)
  /-- A directory of the tree could not be listed. -/
  | walk (name : String) (e : PathError)
  /-- A link in the tree names nothing that exists. -/
  | statLink (name : String) (e : PathError)
  /-- The tree holds more files than the cache may. -/
  | tooMany (max : Nat) (root : String)
  /-- A file could not be read. -/
  | read (name : String) (e : PathError)
  deriving DecidableEq, Repr

namespace LoadError

/-- The text of a load failure. -/
def message : LoadError → String
  | resolveRoot r c => "failed to resolve content root " ++ r ++ ": " ++ c
  | statRoot e => "failed to stat content root: " ++ e.message
  | notDirectory r => "content root " ++ r ++ " is not a directory"
  | walk n e => "failed to walk " ++ n ++ ": " ++ e.message
  | statLink n e => "failed to stat link " ++ n ++ ": " ++ e.message
  | tooMany m r => "more than " ++ toString m ++ " files under " ++ r ++ ": too many files for cache"
  | read n e => "failed to read " ++ n ++ ": " ++ e.message

/-- Whether the failure is the entry limit. -/
def isTooMany : LoadError → Bool
  | tooMany _ _ => true
  | _ => false

theorem isTooMany_iff (e : LoadError) : e.isTooMany = true ↔ ∃ m r, e = tooMany m r := by
  cases e <;> simp [isTooMany]

end LoadError

/-- What a walk has gathered: the entries read and the log entries written. -/
structure Gathered where
  entries : Array Entry := #[]
  logs : Array Log.Entry := #[]

/-- A step of the walk. -/
abbrev Walk := ExceptT LoadError (StateM Gathered)

/-- Writes a log entry. -/
def note (level : Log.Level) (msg : String) : Walk Unit :=
  modify fun g => { g with logs := g.logs.push (Log.Entry.plain level msg) }

/-- The settings of one walk: the tree, the resolved root, the root as configured and the
maximum number of entries. -/
structure WalkSpec where
  tree : Tree
  root : String
  configured : String
  max : Nat

/-- Reads the file at `name` into an entry keyed by `rel`. -/
def readEntry (w : WalkSpec) (name : String) (rel : List String) : Walk Unit := do
  if (← get).entries.size = w.max then throw (.tooMany w.max w.configured)
  match w.tree.readFile name with
  | .error e => throw (.read name e)
  | .ok data =>
    let e := Entry.ofFile (Bytes.ofString ("/" ++ "/".intercalate rel)) data
    note .trace ("read " ++ name ++ " as /" ++ "/".intercalate rel ++ " (" ++ toString e.size ++
      " bytes, " ++ e.mime ++ ")")
    modify fun g => { g with entries := g.entries.push e }

/-- Visits the entry `name` of kind `k`, at `node` in the tree and `rel` below the root, and
all below it; at most `fuel` levels deep. -/
def visit (w : WalkSpec) : Nat → String → Path → List String → Kind → Walk Unit
  | 0, _, _, _, _ => pure ()
  | fuel + 1, name, node, rel, k => do
    if (rel.getLast?.getD "").startsWith "." then
      note .trace ("skipping dot file " ++ name)
    else
      match k with
      | .dir =>
        match w.tree.readDir name node with
        | .error e => throw (.walk name e)
        | .ok cs =>
          cs.forM fun (c, ck) => visit w fuel (Tree.join name c) (node ++ [c]) (rel ++ [c]) ck
      | .link _ =>
        match w.tree.stat name with
        | .error e => throw (.statLink name e)
        | .ok .dir => note .debug ("not following directory link " ++ name)
        | .ok _ => readEntry w name rel
      | k =>
        if k.isRegular then readEntry w name rel
        else note .debug ("skipping irregular file " ++ name)

/-- Reads every file under `root`, with the log entries the walk writes. -/
def loadTree (t : Tree) (root : String) (max : Nat) : Except LoadError (List Entry) × List Log.Entry :=
  match t.evalSymlinks root with
  | .error c => (.error (.resolveRoot root c), [])
  | .ok resolved =>
    match t.stat resolved with
    | .error e => (.error (.statRoot e), [])
    | .ok k =>
      if !k.isDir then (.error (.notDirectory root), [])
      else
        match t.locate resolved true with
        | .error e => (.error (.statRoot ⟨"stat", resolved, e⟩), [])
        | .ok node =>
          match t.readDir resolved node with
          | .error e => (.error (.walk resolved e), [])
          | .ok cs =>
            let w : WalkSpec := ⟨t, resolved, root, max⟩
            let run := cs.forM fun (c, ck) =>
              visit w t.nodes.length (Tree.join resolved c) (node ++ [c]) [c] ck
            match run.run.run {} with
            | (.ok _, g) => (.ok g.entries.toList, g.logs.toList)
            | (.error e, g) => (.error e, g.logs.toList)

end Content

end StaticHttp
