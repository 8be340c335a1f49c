import StaticHttp.Content.Cache

/-!
# Watching the content tree

A watch follows the directories of the content tree, from the resolved root down, leaving out
directories whose name begins with a dot and everything below them. A directory that cannot be
listed stops the walk that meets it: a watch that cannot start fails, and a new directory is
watched only as far as its walk got. A change to an entry of a
watched directory is noticed unless the entry's name begins with a dot; a new directory is then
watched as well. Noticed changes are collected until the tree has been quiet for a while, and
then the cache is loaded once for all of them. A failed reload keeps the live generation.

Main statements:
* `Content.Watch.observe_cancelled`: a cancelled watch notices nothing.
-/

namespace StaticHttp

namespace Content

open Files

/-- The directories from `p`, named `name`, down that a watch adds, in the order of the walk,
with the failure that stopped the walk, if one did: `p` itself and every directory below it whose
name does not begin with a dot, not looking below those that do. A directory that cannot be
listed is added, and then stops the walk. -/
def watchWalk (t : Tree) (name : String) (p : Path) : Nat → List Path × Option LoadError
  | 0 => ([], none)
  | fuel + 1 =>
    match t.readDir name p with
    | .error e => ([p], some (.walk name e))
    | .ok cs =>
      cs.foldl (fun acc (c, k) =>
        if acc.2.isSome || !k.isDir || c.startsWith "." then acc
        else
          let below := watchWalk t (Tree.join name c) (p ++ [c]) fuel
          (acc.1 ++ below.1, below.2)) ([p], none)

/-- A watch: the directories it follows, whether noticed changes wait for a reload, and whether
it was cancelled. -/
structure Watch where
  watched : List Path
  pending : Bool := false
  cancelled : Bool := false
  deriving Repr

namespace Watch

/-- Starts a watch over the tree under `root`. -/
def start (t : Tree) (root : String) : Except LoadError Watch :=
  match t.evalSymlinks root with
  | .error c => .error (.resolveRoot root c)
  | .ok resolved =>
    match t.locate resolved true with
    | .ok p =>
      if (t.kind? p).any Kind.isDir then
        match watchWalk t resolved p t.fuel with
        | (watched, none) => .ok ⟨watched, false, false⟩
        | (_, some e) => .error e
      else .ok ⟨[], false, false⟩
    | .error _ => .ok ⟨[], false, false⟩

/-- The entries of a tree that differ in another: added, removed or changed. -/
def changes (before after : Tree) : List Path :=
  let gone := before.nodes.filter fun (p, k) => !(after.nodes.contains (p, k))
  let added := after.nodes.filter fun (p, k) => !(before.nodes.contains (p, k))
  (gone ++ added).map (·.1)

/-- Notices the changes from one tree to the next; `touched` are entries written even when
their content stayed the same. -/
def observe (w : Watch) (before after : Tree) (touched : List Path) : Watch :=
  if w.cancelled then w
  else
    let paths := changes before after ++ touched
    let seen := paths.filter fun p =>
      w.watched.contains p.dropLast && !((p.getLast?.getD "").startsWith ".")
    -- a new directory is watched as far as its walk gets; a failure of the walk is only logged
    let fresh := seen.flatMap fun p =>
      if (after.kind? p).any Kind.isDir then (watchWalk after (joinText "" p) p after.fuel).1 else []
    let alive := (w.watched ++ fresh).filter fun p => (after.kind? p).any Kind.isDir
    { w with watched := alive.eraseDups, pending := w.pending || !seen.isEmpty }

/-- Stops the watch. -/
def cancel (w : Watch) : Watch := { w with cancelled := true, pending := false }

/-- The reload that follows the changes noticed, if any: the cache after it, and the result. -/
def settle (w : Watch) (c : Cache) (t : Tree) (now : Int) :
    Watch × Cache × Option (Except LoadError Generation) :=
  if !w.pending || w.cancelled then (w, c, none)
  else
    let l := c.load t now
    ({ w with pending := false }, l.cache, some l.result)

theorem observe_cancelled (w : Watch) (before after : Tree) (touched : List Path)
    (h : w.cancelled = true) : w.observe before after touched = w := by
  simp [observe, h]

end Watch

end Content

end StaticHttp
