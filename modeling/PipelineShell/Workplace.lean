/-
A machine made ready for one process that is directed from outside, such as the
interactive shell.

The process finds the commands of the system, an empty home, and a working
directory with the files it was promised.  Its output and error streams are
files, and its input is a file or a terminal of its own.  What it does is given
as a `Program`; all other processes run while that one has to wait.
-/
import PipelineShell.Machine.Schedule
import PipelineShell.Task

namespace PipelineShell

/-- Where the input of the process comes from. -/
inductive InputSource where
  | file (content : Bytes)
  /-- A terminal whose session the process leads. -/
  | terminal
deriving DecidableEq, Repr

/-- What a machine is made ready with. -/
structure Furnishing where
  /-- Below the working directory, by path; a path without contents is a directory. -/
  files : List (String × Option Bytes) := []
  /-- Below the home directory. -/
  home : List (String × Option Bytes) := []
  input : InputSource := .file []
  terminalName : String := "dumb"
  descriptorLimit : Nat := 1024
  childLimit : Option Nat := none

structure Workplace where
  machine : Machine Task
  /-- The process that is directed from outside. -/
  process : Pid
  /-- The working directory at the beginning. -/
  directory : NodeId
  output : NodeId
  error : NodeId

namespace FileTree

/-- Adds a file below a directory, with the directories on its way. -/
def place (t : FileTree) (below : List String) (path : String) (content : Option Bytes) :
    FileTree :=
  let names := below ++ names path
  match content, names.getLast? with
  | some content, some name =>
    let (directory, t) := t.ensureDirectory names.dropLast
    (t.add directory name (.file content false 0)).2
  | _, _ => (t.ensureDirectory names).2

/-- Adds files below a directory. -/
def placeAll (t : FileTree) (below : List String) (files : List (String × Option Bytes)) :
    FileTree :=
  files.foldl (fun t (path, content) => t.place below path content) (t.ensureDirectory below).2

/-- Adds nodes to a directory. -/
def install (t : FileTree) (below : List String) (nodes : List (String × Node)) : FileTree :=
  let (directory, t) := t.ensureDirectory below
  nodes.foldl (fun t (name, node) => (t.add directory name node).2) t

/-- The commands of the system, its devices, and its usual directories. -/
def system : FileTree :=
  let t := bare.install ["usr", "bin"] (Task.programs.map fun name => (name, .program name))
  let t := t.install ["dev"]
    [("null", .device .null), ("zero", .device .zero), ("full", .device .full),
      ("tty", .device .terminal), ("random", .device .random), ("urandom", .device .random)]
  let t := t.install [] [("bin", .link "usr/bin"), ("proc", .processes)]
  [["usr", "local", "bin"], ["etc"], ["home"], ["root"], ["tmp"], ["var"]].foldl
    (fun t names => (t.ensureDirectory names).2) t

end FileTree

namespace Furnishing

def workNames : List String := ["tmp", "work"]

def homeNames : List String := ["tmp", "home"]

def homePath : String := "/" ++ String.intercalate "/" homeNames

def environment (f : Furnishing) : List (String × String) :=
  [("PATH", "/usr/local/bin:/usr/bin:/bin"), ("HOME", homePath), ("LC_ALL", "C"),
    ("TERM", f.terminalName)]

/-- The number of the process. -/
def process : Pid := 1000

/-- The machine, ready to be used. -/
def workplace (f : Furnishing) : Workplace :=
  let tree := (FileTree.system.placeAll workNames f.files).placeAll homeNames f.home
  let (directory, tree) := tree.ensureDirectory workNames
  let (streams, tree) := tree.ensureDirectory ["var", "stream"]
  let (input, tree) := match f.input with
    | .file content => tree.add streams "input" (.file content false 0)
    | .terminal => tree.add streams "input" (.device .terminal)
  let (output, tree) := tree.add streams "output" (.file [] false 0)
  let (error, tree) := tree.add streams "error" (.file [] false 0)
  let leads := decide (f.input = .terminal)
  -- Without a terminal the process is in a group of someone else's.
  let group : Pid := if leads then process else process - 1
  let p : Process Task :=
    { pid := process, parent := process - 1, group, session := group, name := "pipesh", task := none
      directory
      descriptors := [(.input, { file := 0 }), (.output, { file := 1 }), (.error, { file := 2 })]
      environment := f.environment }
  { machine :=
      { software := Task.software, tree
        files :=
          #[{ object := .node input, reads := true, writes := leads },
            { object := .node output, reads := false, writes := true, append := true },
            { object := .node error, reads := false, writes := true, append := true }]
        processes := [p]
        terminal := if leads then some { foreground := group, session := group } else none
        nextPid := process + 1
        descriptorLimit := f.descriptorLimit
        childLimit := f.childLimit }
    process, directory, output, error }

end Furnishing

namespace Workplace

/-- How many steps a program is given that only makes requests of its own. -/
def patience : Nat := 1000000

/-- Runs a program in the process; `none` if it does not come to its end. -/
def run {α : Type} (w : Workplace) (program : Program Task α) : Option (α × Workplace) :=
  (w.machine.runProgram patience w.process program).map fun (a, machine) => (a, { w with machine })

/-- What a stream has been given. -/
def stream (w : Workplace) (id : NodeId) : Bytes :=
  match w.machine.tree.node? id with
  | some (.file content _ _) => content
  | _ => []

/-- Everything below the working directory, by path; a directory has no contents. -/
def files (w : Workplace) : List (String × Option Bytes) := w.machine.tree.listing w.directory

end Workplace

end PipelineShell
