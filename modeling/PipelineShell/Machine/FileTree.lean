/-
The tree of files: directories, regular files, links, devices, the programs
that are installed, and the directory that tells about processes.

Nodes are numbered, and a name in a directory stands for a number, so an open
file stays what it is when its name is taken away.  `walk` follows a path from
a directory.  What lies below the directory of processes is not in the tree;
a walk that comes there answers with the names that are left.
-/
import PipelineShell.Machine.Request

namespace PipelineShell

abbrev NodeId := Nat

inductive Device where
  | null | zero | full | terminal | random
deriving DecidableEq, Repr

inductive Node where
  | file (content : Bytes) (executable : Bool) (modified : Nat)
  | directory (parent : NodeId) (entries : List (String × NodeId))
  | link (target : String)
  | device (device : Device)
  | program (name : String)
  | processes
deriving DecidableEq, Repr

structure FileTree where
  nodes : Array Node
deriving Repr

/-- Where a path leads. -/
inductive Place where
  | found (node : NodeId)
  /-- Nothing has this name in the directory, but it could be made there. -/
  | absent (directory : NodeId) (name : String)
  /-- The names left when the directory of processes was reached. -/
  | processes (names : List String)
deriving DecidableEq, Repr

namespace FileTree

def root : NodeId := 0

/-- A tree of nothing but its root. -/
def bare : FileTree := ⟨#[.directory root []]⟩

def node? (t : FileTree) (id : NodeId) : Option Node := t.nodes[id]?

def set (t : FileTree) (id : NodeId) (node : Node) : FileTree := ⟨t.nodes.setIfInBounds id node⟩

def isDirectory (t : FileTree) (id : NodeId) : Bool :=
  match t.node? id with
  | some (.directory _ _) => true
  | some .processes => true
  | _ => false

def entries (t : FileTree) (id : NodeId) : List (String × NodeId) :=
  match t.node? id with
  | some (.directory _ entries) => entries
  | _ => []

/-- Gives a directory other entries. -/
def setEntries (t : FileTree) (id : NodeId) (entries : List (String × NodeId)) : FileTree :=
  match t.node? id with
  | some (.directory parent _) => t.set id (.directory parent entries)
  | _ => t

/-- Adds a node under a name of a directory, replacing what had the name. -/
def add (t : FileTree) (directory : NodeId) (name : String) (node : Node) : NodeId × FileTree :=
  let id := t.nodes.size
  let t : FileTree := ⟨t.nodes.push node⟩
  (id, t.setEntries directory ((t.entries directory).filter (·.1 ≠ name) ++ [(name, id)]))

/-- Takes a name out of a directory. -/
def unlink (t : FileTree) (directory : NodeId) (name : String) : FileTree :=
  t.setEntries directory ((t.entries directory).filter (·.1 ≠ name))

/-- The path cut at every slash. -/
def parts (path : String) : List String := (path.toList.splitOn '/').map String.ofList

/-- The names of a path, without empty ones and single points. -/
def names (path : String) : List String :=
  (parts path).filter fun name => name ≠ "" && name ≠ "."

/-- The path can only mean a directory. -/
def meansDirectory (path : String) : Bool :=
  match (parts path).getLast? with
  | some name => name = "" || name = "." || name = ".."
  | none => false

def isAbsolute (path : String) : Bool := path.toList.head? = some '/'

/-- The longest name of a file, in bytes. -/
def nameLimit : Nat := 255

/-- Follows names from a directory.  `jump` goes on behind a link; a link at the very end is followed
only on request. -/
def followNames (t : FileTree) (last : Bool) (jump : NodeId → List String → Except Errno Place)
    (here : NodeId) : List String → Except Errno Place
  | [] => .ok (.found here)
  | name :: rest =>
    match t.node? here with
    | some .processes => .ok (.processes (name :: rest))
    | some (.directory parent entries) =>
      if name = ".." then t.followNames last jump parent rest
      else if name.utf8ByteSize > nameLimit then .error .enametoolong
      else
        match entries.lookup name with
        | none => if rest.isEmpty then .ok (.absent here name) else .error .enoent
        | some id =>
          match t.node? id with
          | some (.link target) =>
            if rest.isEmpty && !last then .ok (.found id)
            else jump (if isAbsolute target then root else here) (names target ++ rest)
          | _ => t.followNames last jump id rest
    | _ => .error .enotdir

/-- Follows names from a directory, and at most so many links. -/
def follow (t : FileTree) (last : Bool) : Nat → NodeId → List String → Except Errno Place
  | 0 => t.followNames last fun _ _ => .error .eloop
  | links + 1 => t.followNames last (t.follow last links)

/-- Where a path leads from a directory. -/
def walk (t : FileTree) (here : NodeId) (path : String) (last : Bool) : Except Errno Place := do
  if path = "" then throw .enoent
  if path.utf8ByteSize > 4095 then throw .enametoolong
  let directory := meansDirectory path
  let start := if isAbsolute path then root else here
  let place ← t.follow (last || directory) 40 start (names path)
  match place with
  | .found id => if directory && !t.isDirectory id then throw .enotdir else return place
  | _ => return place

/-- The name that a directory has in its parent. -/
def nameOf? (t : FileTree) (id : NodeId) : Option (NodeId × String) :=
  match t.node? id with
  | some (.directory parent _) =>
    ((t.entries parent).find? (·.2 = id)).map fun entry => (parent, entry.1)
  | some .processes => ((t.entries root).find? (·.2 = id)).map fun entry => (root, entry.1)
  | _ => none

/-- The names on the way from the root to a directory; `none` if it is in the tree no more. -/
def pathNames (t : FileTree) (id : NodeId) : Option (List String) := go t.nodes.size id []
where
  go : Nat → NodeId → List String → Option (List String)
    | 0, _, _ => none
    | fuel + 1, id, names =>
      if id = root then some names
      else (t.nameOf? id).bind fun (parent, name) => go fuel parent (name :: names)

/-- The absolute path of a directory. -/
def pathOf? (t : FileTree) (id : NodeId) : Option String :=
  (t.pathNames id).map fun names => "/" ++ String.intercalate "/" names

/-- The node of an absolute path, making the directories on the way that are missing. -/
def ensureDirectory (t : FileTree) (names : List String) : NodeId × FileTree :=
  names.foldl
    (fun (here, t) name =>
      match (t.entries here).lookup name with
      | some id => (id, t)
      | none => t.add here name (.directory here []))
    (root, t)

/-- What a part of the tree holds, by path: the contents of a regular file, nothing for a
directory. -/
def listing (t : FileTree) (id : NodeId) : List (String × Option Bytes) := go t.nodes.size id ""
where
  go : Nat → NodeId → String → List (String × Option Bytes)
    | 0, _, _ => []
    | fuel + 1, id, before =>
      (t.entries id).flatMap fun (name, child) =>
        match t.node? child with
        | some (.file content _ _) => [(before ++ name, some content)]
        | some (.directory _ _) =>
          (before ++ name ++ "/", none) :: go fuel child (before ++ name ++ "/")
        | _ => []

end FileTree

end PipelineShell
