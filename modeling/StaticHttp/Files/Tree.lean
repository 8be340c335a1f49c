import StaticHttp.Bytes.Basic

/-!
# File trees

The server reads its content and configuration from a file tree. The tree is held as the list
of its paths with what each names: a directory, a regular file with its bytes, a symbolic link
with its target, a named pipe, a device that reads as given bytes, or a regular file whose
reads fail. Every path's parent is a directory of the tree. Some directories may be unlisted:
they can be gone through, but reading their entries is refused.

Paths are taken as the operating system takes them. A path beginning with `/`, or with the
name `$ROOT` under which the scratch directory is known, starts at the top; any other starts at
the working directory. Each component must name a directory to go on through, and symbolic
links met on the way are followed, the last component's only where the operation follows
links; one lookup follows at most forty links. A failed operation reports the operation, the
path as it was given and the system's reason.
-/

namespace StaticHttp

namespace Files

/-- What a path names. -/
inductive Kind where
  | dir
  | file (data : Bytes)
  | link (target : String)
  | fifo
  | device (data : Bytes)
  | faulty
  deriving DecidableEq, Repr

namespace Kind

/-- A directory. -/
def isDir : Kind → Bool
  | dir => true
  | _ => false

/-- A regular file: one whose bytes can be asked for, even if reading them fails. -/
def isRegular : Kind → Bool
  | file _ => true
  | faulty => true
  | _ => false

end Kind

/-- The system's reasons for a failed operation. -/
inductive Errno where
  | noEntry | notDir | isDir | io | exists | loop | notEmpty | access
  deriving DecidableEq, Repr

/-- The system's text for a reason. -/
def Errno.text : Errno → String
  | .noEntry => "no such file or directory"
  | .notDir => "not a directory"
  | .isDir => "is a directory"
  | .io => "input/output error"
  | .exists => "file exists"
  | .loop => "too many levels of symbolic links"
  | .notEmpty => "directory not empty"
  | .access => "permission denied"

/-- A failed operation: its name, the path as given and the reason. -/
structure PathError where
  op : String
  path : String
  errno : Errno
  deriving DecidableEq, Repr

/-- The text of a failed operation. -/
def PathError.message (e : PathError) : String := e.op ++ " " ++ e.path ++ ": " ++ e.errno.text

/-- A path from the top of the tree, as its components. -/
abbrev Path := List String

/-- The name under which the scratch directory is known. -/
def scratch : String := "$ROOT"

/-- The components of a path text. -/
def components (s : String) : List String := (s.splitOn "/").filter (· ≠ "")

/-- Whether a path text starts at the top. -/
def isAbsolute (s : String) : Bool := s.startsWith "/" || (components s).head? == some scratch

/-- A path text of components, under a volume that is `/` or empty. -/
def joinText (vol : String) (cs : List String) : String := vol ++ "/".intercalate cs

/-- A file tree with a working directory. `unlisted` holds the directories whose entries cannot
be listed: they can be looked at and gone through, but opening them for reading is refused. -/
structure Tree where
  nodes : List (Path × Kind)
  cwd : Path
  unlisted : List Path := []
  deriving Repr

namespace Tree

/-- The directories a system has at its top. -/
def systemDirs : List String :=
  ["bin", "boot", "etc", "home", "lib", "media", "mnt", "opt", "root", "run", "sbin", "srv", "sys",
    "tmp", "usr", "var"]

/-- Directories one level down that every system has. -/
def systemSubdirs : List Path :=
  [["usr", "bin"], ["usr", "lib"], ["usr", "local"], ["usr", "sbin"], ["usr", "share"],
    ["var", "cache"], ["var", "lib"], ["var", "log"], ["var", "tmp"], ["dev", "pts"], ["dev", "shm"],
    ["proc", "sys"], ["sys", "kernel"], ["proc", "self", "cwd"]]

/-- A tree holding the scratch directory as working directory, the directories of a system
that content may link to, and the few system files it may link to. -/
def initial : Tree :=
  ⟨[([scratch], .dir), (["proc"], .dir), (["proc", "self"], .dir), (["proc", "self", "mem"], .faulty),
    (["proc", "self", "fd"], .dir), (["proc", "self", "root"], .link "/"), (["dev"], .dir),
    (["dev", "null"], .device [])] ++
    systemDirs.map (fun d => ([d], .dir)) ++ systemSubdirs.map fun p => (p, .dir), [scratch], []⟩

/-- What a path of the tree names, with no link followed; the top is a directory. -/
def kind? (t : Tree) (p : Path) : Option Kind :=
  if p.isEmpty then some .dir else (t.nodes.find? (·.1 == p)).map (·.2)

/-- The path a text starts from and its components. -/
def start (t : Tree) (s : String) : Path × List String :=
  if isAbsolute s then ([], components s) else (t.cwd, components s)

/-- The most links one lookup follows. -/
def maxLinks : Nat := 40

/-- Walks components from the directory `cur`, having followed `links` links. A link met on
the way gives way to its target's components, from the top when the target is absolute; a link
as the last component is followed only when `follow` holds, and a lookup that would follow more
than `maxLinks` links fails. When `create` holds, a last component that names nothing gives the
path it would have. Each step spends one unit of `fuel`. -/
def walk (t : Tree) (follow create : Bool) : Nat → Nat → Path → List String → Except Errno Path
  | 0, _, _, _ => .error .loop
  | _ + 1, _, cur, [] => .ok cur
  | fuel + 1, links, cur, c :: rest =>
    if c = "." then walk t follow create fuel links cur rest
    else if c = ".." then walk t follow create fuel links cur.dropLast rest
    else
      let p := cur ++ [c]
      match t.kind? p with
      | none => if rest.isEmpty && create then .ok p else .error .noEntry
      | some (.link target) =>
        if rest.isEmpty && !follow then .ok p
        else if links ≥ maxLinks then .error .loop
        else
          let base := if isAbsolute target then [] else cur
          walk t follow create fuel (links + 1) base (components target ++ rest)
      | some k =>
        if rest.isEmpty then .ok p
        else if k.isDir then walk t follow create fuel links p rest
        else .error .notDir

/-- The fuel for a walk: enough for any path and any chain of links in the tree. -/
def fuel (t : Tree) : Nat := 4096 + t.nodes.length

/-- The path a text names, following links as `follow` says. -/
def locate (t : Tree) (s : String) (follow : Bool) : Except Errno Path :=
  let (base, cs) := t.start s
  walk t follow false t.fuel 0 base cs

/-- The path a file opened for writing at a path text is at: the one it names, links followed,
or the one a missing last component would have, where a final link that leads nowhere yet
leads. -/
def writePlace (t : Tree) (s : String) : Except Errno Path :=
  let (base, cs) := t.start s
  walk t true true t.fuel 0 base cs

/-- What a path names, without following a final link. -/
def lstat (t : Tree) (s : String) : Except PathError Kind :=
  match t.locate s false with
  | .error e => .error ⟨"lstat", s, e⟩
  | .ok p => match t.kind? p with
    | some k => .ok k
    | none => .error ⟨"lstat", s, .noEntry⟩

/-- What a path names, following links. -/
def stat (t : Tree) (s : String) : Except PathError Kind :=
  match t.locate s true with
  | .error e => .error ⟨"stat", s, e⟩
  | .ok p => match t.kind? p with
    | some k => .ok k
    | none => .error ⟨"stat", s, .noEntry⟩

/-- The bytes of a file. -/
def readFile (t : Tree) (s : String) : Except PathError Bytes :=
  match t.locate s true with
  | .error e => .error ⟨"open", s, e⟩
  | .ok p => match t.kind? p with
    | some (.file d) => .ok d
    | some (.device d) => .ok d
    | some .dir => .error ⟨"read", s, .isDir⟩
    | some .faulty => .error ⟨"read", s, .io⟩
    | _ => .error ⟨"open", s, .noEntry⟩

/-- The entries of the directory at a path of the tree, sorted by name. -/
def children (t : Tree) (p : Path) : List (String × Kind) :=
  let direct := t.nodes.filterMap fun (q, k) =>
    if q.dropLast == p && q.length == p.length + 1 then q.getLast?.map (·, k) else none
  direct.mergeSort fun a b => decide (a.1 ≤ b.1)

/-- Reading the directory that the path text `s` names, at the node `p`: its entries sorted by
name, or the refusal to open a directory that cannot be listed. -/
def readDir (t : Tree) (s : String) (p : Path) : Except PathError (List (String × Kind)) :=
  if t.unlisted.contains p then .error ⟨"open", s, .access⟩ else .ok (t.children p)

/-- Sets what a path of the tree names. -/
def put (t : Tree) (p : Path) (k : Kind) : Tree :=
  if (t.kind? p).isSome then { t with nodes := t.nodes.map fun (q, k') => if q == p then (q, k) else (q, k') }
  else { t with nodes := t.nodes ++ [(p, k)] }

/-- The directory that will hold a new entry at a path text, and the entry's name. -/
def parentOf (t : Tree) (s : String) : Except Errno (Path × String) := do
  let (base, cs) := t.start s
  match cs.getLast? with
  | none => .error .exists
  | some name =>
    let dir ← walk t true false t.fuel 0 base cs.dropLast
    if (t.kind? dir).any Kind.isDir then pure (dir, name) else .error .notDir

/-- Creates a directory and any missing parents. -/
def mkdirAll (t : Tree) (s : String) : Except PathError Tree :=
  let cs := components s
  let prefixes := (List.range cs.length).map fun i => cs.take (i + 1)
  let lead := if s.startsWith "/" then "/" else ""
  List.foldlM (fun t pre =>
    let text := joinText lead pre
    match t.stat text with
    | .ok .dir => pure t
    | .ok _ => .error ⟨"mkdir", text, .notDir⟩
    | .error _ =>
      match t.parentOf text with
      | .ok (dir, name) =>
        if (t.kind? (dir ++ [name])).isSome then .error ⟨"mkdir", text, .exists⟩
        else pure (t.put (dir ++ [name]) .dir)
      | .error e => .error ⟨"mkdir", text, e⟩) t prefixes

/-- Writes a file, replacing what a file there held and following a link there, also one
that leads to a file not made yet. -/
def writeFile (t : Tree) (s : String) (data : Bytes) : Except PathError Tree :=
  match t.writePlace s with
  | .ok p => match t.kind? p with
    | some .dir => .error ⟨"open", s, .isDir⟩
    | _ => .ok (t.put p (.file data))
  | .error e => .error ⟨"open", s, e⟩

/-- Adds bytes at the end of a file, creating it when it is missing. -/
def appendFile (t : Tree) (s : String) (data : Bytes) : Except PathError Tree :=
  match t.writePlace s with
  | .ok p => match t.kind? p with
    | some .dir => .error ⟨"open", s, .isDir⟩
    | some (.file old) => .ok (t.put p (.file (old ++ data)))
    | none => .ok (t.put p (.file data))
    | _ => .ok t
  | .error e => .error ⟨"open", s, e⟩

/-- The path text of the directory holding a path text's last component. -/
def parentText (s : String) : String :=
  joinText (if s.startsWith "/" then "/" else "") (components s).dropLast

/-- Writes a file, creating the directories above it first. -/
def writeCreating (t : Tree) (s : String) (data : Bytes) : Except PathError Tree := do
  let t ← t.mkdirAll (parentText s)
  t.writeFile s data

/-- Makes a new entry at a path text that names nothing yet. -/
def create (t : Tree) (op s : String) (k : Kind) : Except PathError Tree :=
  match t.parentOf s with
  | .ok (dir, name) =>
    if (t.kind? (dir ++ [name])).isSome then .error ⟨op, s, .exists⟩
    else .ok (t.put (dir ++ [name]) k)
  | .error e => .error ⟨op, s, e⟩

/-- Creates a symbolic link to `target`. -/
def symlink (t : Tree) (s target : String) : Except PathError Tree :=
  match t.create "symlink" s (.link target) with
  | .error e => .error { e with path := target ++ " " ++ s }
  | .ok t => .ok t

/-- Creates a named pipe. The call reports only the reason of a failure, without a path. -/
def mkfifo (t : Tree) (s : String) : Except Errno Tree :=
  (t.create "mkfifo" s .fifo).mapError PathError.errno

/-- Removes what a path names, with everything under it; a final link is removed, not
followed, and a missing path is no error. -/
def removeAll (t : Tree) (s : String) : Except PathError Tree :=
  match t.locate s false with
  | .ok p =>
    .ok { t with
      nodes := t.nodes.filter fun (q, _) => !(p.isPrefixOf q)
      unlisted := t.unlisted.filter fun q => !(p.isPrefixOf q) }
  | .error .noEntry => .ok t
  | .error e => .error ⟨"unlinkat", s, e⟩

/-- Removes the file, link or empty directory a path text names; a final link is removed, not
followed. -/
def remove (t : Tree) (s : String) : Except PathError Tree :=
  match t.locate s false with
  | .error e => .error ⟨"remove", s, e⟩
  | .ok p =>
    if (t.kind? p).any Kind.isDir && !(t.children p).isEmpty then .error ⟨"remove", s, .notEmpty⟩
    else .ok { t with nodes := t.nodes.filter (fun (q, _) => q != p), unlisted := t.unlisted.erase p }

/-- A path text of components, or `.` for none. -/
def cleanText (vol : String) (cs : List String) : String :=
  if vol.isEmpty && cs.isEmpty then "." else joinText vol cs

/-- Resolves every symbolic link in a path text. `dest` is the part resolved so far under the
volume `vol`, `todo` the components still to go, `links` the links followed. A link to a
relative target replaces the link's own component; one to an absolute target starts again
from the top. -/
def resolveLinks (t : Tree) : Nat → String → List String → List String → Nat → Except String String
  | 0, _, _, _, _ => .error "EvalSymlinks: too many links"
  | _ + 1, vol, dest, [], _ => .ok (cleanText vol dest)
  | fuel + 1, vol, dest, c :: rest, links =>
    if c = "." then resolveLinks t fuel vol dest rest links
    else if c = ".." then
      if dest.isEmpty || dest.getLast? == some ".." then resolveLinks t fuel vol (dest ++ [".."]) rest links
      else resolveLinks t fuel vol dest.dropLast rest links
    else
      let d := dest ++ [c]
      match t.lstat (joinText vol d) with
      | .error e => .error e.message
      | .ok (.link target) =>
        if links + 1 > 255 then .error "EvalSymlinks: too many links"
        else
          let tcs := components target
          if target.startsWith "/" then resolveLinks t fuel "/" [] (tcs ++ rest) (links + 1)
          else if isAbsolute target then resolveLinks t fuel "" [] (tcs ++ rest) (links + 1)
          else resolveLinks t fuel vol dest (tcs ++ rest) (links + 1)
      | .ok k =>
        if !k.isDir && !rest.isEmpty then .error "not a directory"
        else resolveLinks t fuel vol d rest links

/-- A path text with every symbolic link resolved. -/
def evalSymlinks (t : Tree) (s : String) : Except String String :=
  resolveLinks t t.fuel (if s.startsWith "/" then "/" else "") [] (components s) 0

/-- A path text with one more component. -/
def join (s c : String) : String := if s = "." then c else if s.endsWith "/" then s ++ c else s ++ "/" ++ c

end Tree

end Files

end StaticHttp
