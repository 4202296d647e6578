/-
System calls: how the machine answers the requests of a process.

`perform` either answers, or finds that the process has to wait, or that it
does not go on with what it was doing: it has ended, or executes another file.
A process that has to wait makes the same request again later, so waiting
changes nothing that the answer depends on.
-/
import PipelineShell.Machine.Delivery
import PipelineShell.Text.Blank

namespace PipelineShell

inductive Outcome (τ α : Type) where
  | answered (answer : α) (machine : Machine τ)
  | blocked (machine : Machine τ)
  | gone (machine : Machine τ)

namespace Machine

variable {τ α : Type}

def fail (e : Errno) (m : Machine τ) : Outcome τ (Except Errno α) := .answered (.error e) m

def succeed (a : α) (m : Machine τ) : Outcome τ (Except Errno α) := .answered (.ok a) m

/-- An answer that changes nothing, from a computation that may fail. -/
def settle (m : Machine τ) : Except Errno (α × Machine τ) → Outcome τ (Except Errno α)
  | .ok (a, m) => m.succeed a
  | .error e => m.fail e

/-! Descriptors. -/

/-- Puts an open file on the least free descriptor. -/
def assign (m : Machine τ) (p : Process τ) (least : Descriptor) (slot : Slot) :
    Except Errno (Descriptor × Machine τ) :=
  let fd := p.freeDescriptor least
  if fd < m.descriptorLimit then .ok (fd, m.modify p.pid fun p => p.setSlot fd slot)
  else .error .emfile

/-- What the names below the directory of processes mean. -/
inductive ProcessEntry where
  | directory (pid : Pid)
  | status (pid : Pid)

def processEntry? (m : Machine τ) (reader : Pid) (names : List String) : Option ProcessEntry :=
  let pid? := fun (name : String) =>
    if name = "self" then some reader
    else name.toNat?.bind fun n => (m.process? (n : Int)).map (·.pid)
  match names with
  | [name] => (pid? name).map .directory
  | [name, "stat"] => (pid? name).map .status
  | _ => none

/-- The object that a path opens, and the tree in which it was made if it had to be. -/
def target (m : Machine τ) (p : Process τ) (path : String) (mode : OpenMode) :
    Except Errno (Object × Machine τ) := do
  match ← m.tree.walk p.directory path true with
  | .processes names =>
    match m.processEntry? p.pid names with
    | some (.status pid) => return (.processStatus pid, m)
    | some (.directory _) => throw .eisdir
    | none => throw .enoent
  | .absent directory name =>
    if !mode.create then throw .enoent
    if FileTree.meansDirectory path then throw .eisdir
    let (id, tree) := m.tree.add directory name (.file [] false m.clock)
    return (.node id, { m with tree })
  | .found id =>
    if mode.create && mode.exclusive then throw .eexist
    if m.tree.isDirectory id && (mode.writes || mode.create) then throw .eisdir
    match m.tree.node? id with
    | some (.file _ executable _) =>
      if mode.truncate then
        return (.node id, { m with tree := m.tree.set id (.file [] executable m.clock) })
      else return (.node id, m)
    | _ => return (.node id, m)

def openFile (m : Machine τ) (p : Process τ) (path : String) (mode : OpenMode) :
    Outcome τ (Except Errno Descriptor) :=
  m.settle do
    if p.freeDescriptor 0 ≥ m.descriptorLimit then throw .emfile
    let (object, m) ← m.target p path mode
    let file : OpenFile :=
      { object, reads := mode.reads, writes := mode.writes, append := mode.append }
    let (position, m) := m.addFile file
    m.assign p 0 { file := position, closeOnExec := mode.closeOnExec }

def openFileOf? (m : Machine τ) (p : Process τ) (fd : Descriptor) : Option (Slot × OpenFile) := do
  let slot ← p.slot? fd
  let file ← m.file? slot
  return (slot, file)

def closeDescriptor (m : Machine τ) (p : Process τ) (fd : Descriptor) :
    Outcome τ (Except Errno Unit) :=
  if (p.slot? fd).isSome then (m.modify p.pid fun p => p.clearSlot fd).succeed () else m.fail .ebadf

def duplicate (m : Machine τ) (p : Process τ) (source target : Descriptor) :
    Outcome τ (Except Errno Unit) :=
  match p.slot? source with
  | none => m.fail .ebadf
  | some slot =>
    if target ≥ m.descriptorLimit then m.fail .ebadf
    else if source = target then m.succeed ()
    else (m.modify p.pid fun p => p.setSlot target { file := slot.file }).succeed ()

def duplicateAbove (m : Machine τ) (p : Process τ) (source least : Descriptor) :
    Outcome τ (Except Errno Descriptor) :=
  match p.slot? source with
  | none => m.fail .ebadf
  | some slot => m.settle (m.assign p least { file := slot.file, closeOnExec := true })

def makePipe (m : Machine τ) (p : Process τ) : Outcome τ (Except Errno (Descriptor × Descriptor)) :=
  let number := m.pipes.size
  let (readAt, n) := m.addFile { object := .readEnd number, reads := true, writes := false }
  let (writeAt, n) := n.addFile { object := .writeEnd number, reads := false, writes := true }
  let attempt : Except Errno ((Descriptor × Descriptor) × Machine τ) := do
    let (readFd, n) ← n.assign p 0 { file := readAt, closeOnExec := true }
    let some p := n.process? p.pid | throw .esrch
    let (writeFd, n) ← n.assign p 0 { file := writeAt, closeOnExec := true }
    return ((readFd, writeFd), { n with pipes := n.pipes.push [] })
  match attempt with
  | .ok (ends, n) => n.succeed ends
  | .error e => m.fail e

/-! Reading and writing. -/

def advance (m : Machine τ) (slot : Slot) (file : OpenFile) (offset : Nat) : Machine τ :=
  { m with files := m.files.setIfInBounds slot.file { file with offset } }

/-- Reads from contents that do not depend on who reads. -/
def readContent (m : Machine τ) (slot : Slot) (file : OpenFile) (content : Bytes) (count : Nat) :
    Outcome τ (Except Errno Bytes) :=
  let data := (content.drop file.offset).take count
  (m.advance slot file (file.offset + data.length)).succeed data

def readTerminal (m : Machine τ) (p : Process τ) (count : Nat) : Outcome τ (Except Errno Bytes) :=
  match m.terminal with
  | none => m.fail .eio
  | some t =>
    if p.group ≠ t.foreground then
      if p.disposition .terminalInput = .ignored || m.isOrphaned p.group then m.fail .eio
      else .blocked (m.deliverToGroup p.group .terminalInput)
    else
      match t.read? count with
      | none => .blocked m
      | some (data, t) => { m with terminal := some t }.succeed data

def readDescriptor (m : Machine τ) (p : Process τ) (fd : Descriptor) (count : Nat) :
    Outcome τ (Except Errno Bytes) :=
  match m.openFileOf? p fd with
  | none => m.fail .ebadf
  | some (slot, file) =>
    if !file.reads then m.fail .ebadf
    else
      match file.object with
      | .writeEnd _ => m.fail .ebadf
      | .readEnd pipe =>
        match m.pipes[pipe]? with
        | some (byte :: data) =>
          { m with pipes := m.pipes.setIfInBounds pipe ((byte :: data).drop count) }.succeed
            ((byte :: data).take count)
        | _ => if m.isOpen (.writeEnd pipe) then .blocked m else m.succeed []
      | .processStatus pid =>
        match m.process? pid with
        | none => m.fail .esrch
        | some q => m.readContent slot file (Bytes.ofText (m.statusLine q p.pid)) count
      | .node id =>
        match m.tree.node? id with
        | some (.file content _ _) => m.readContent slot file content count
        | some (.device .zero) => m.succeed (List.replicate count 0)
        | some (.device .full) => m.succeed (List.replicate count 0)
        | some (.device .terminal) => m.readTerminal p count
        | some (.device _) => m.succeed []
        | some (.program _) => m.succeed []
        | _ => m.fail .eisdir

/-- How much a pipe holds. -/
def pipeCapacity : Nat := 65536

/-- Up to this many bytes are written to a pipe all at once or not yet. -/
def pipeUnit : Nat := 4096

/-- The contents after writing at an offset; a gap is filled with zeros. -/
def overwrite (content : Bytes) (offset : Nat) (data : Bytes) : Bytes :=
  content.take offset ++ List.replicate (offset - content.length) 0 ++ data ++
    content.drop (offset + data.length)

def writePipe (m : Machine τ) (p : Process τ) (pipe : Nat) (data : Bytes) :
    Outcome τ (Except Errno Nat) :=
  if !m.isOpen (.readEnd pipe) then
    let m := m.act p.pid .brokenPipe
    match m.process? p.pid with
    | some q => if q.hasEnded then .gone m else m.fail .epipe
    | none => .gone m
  else
    let held := m.pipes[pipe]?.getD []
    let room := pipeCapacity - held.length
    if room = 0 || (data.length ≤ pipeUnit && room < data.length) then .blocked m
    else
      let part := data.take room
      { m with pipes := m.pipes.setIfInBounds pipe (held ++ part) }.succeed part.length

def writeDescriptor (m : Machine τ) (p : Process τ) (fd : Descriptor) (data : Bytes) :
    Outcome τ (Except Errno Nat) :=
  match m.openFileOf? p fd with
  | none => m.fail .ebadf
  | some (slot, file) =>
    if !file.writes then m.fail .ebadf
    else
      match file.object with
      | .writeEnd pipe => m.writePipe p pipe data
      | .node id =>
        match m.tree.node? id with
        | some (.file content executable _) =>
          let offset := if file.append then content.length else file.offset
          let tree := m.tree.set id (.file (overwrite content offset data) executable m.clock)
          ({ m with tree }.advance slot file (offset + data.length)).succeed data.length
        | some (.device .full) => m.fail .enospc
        | some (.device _) => m.succeed data.length
        | _ => m.fail .ebadf
      | _ => m.fail .ebadf

def isTerminal (m : Machine τ) (p : Process τ) (fd : Descriptor) : Bool :=
  match m.openFileOf? p fd with
  | some (_, file) =>
    match file.object with
    | .node id => m.tree.node? id = some (.device .terminal)
    | _ => false
  | none => false

/-! Processes. -/

/-- A copy of the process that begins with another task. -/
def forkProcess (m : Machine τ) (p : Process τ) (child : τ) : Outcome τ (Except Errno Pid) :=
  let full : Bool := match m.childLimit with
    | some limit => (m.childrenOf p.pid).length ≥ limit
    | none => false
  if full then m.fail .eagain
  else
    let pid := m.nextPid
    let q : Process τ :=
      { p with
        pid, parent := p.pid, task := some (m.software.round child), executed := false, held := []
        caught := [], wakeAt := none }
    { m with processes := m.processes ++ [q], nextPid := pid + 1 }.succeed pid

/-- The program that a path names, with its arguments.  A script names the program that reads it;
`depth` bounds how many scripts stand one behind the other. -/
def image (m : Machine τ) (p : Process τ) (depth : Nat) (path : String) (arguments : List String) :
    Except Errno (String × List String) := do
  match ← m.tree.walk p.directory path true with
  | .processes _ => throw .eacces
  | .absent _ _ => throw .enoent
  | .found id =>
    match m.tree.node? id with
    | some (.program name) => return (name, arguments)
    | some (.file content executable _) =>
      if !executable then throw .eacces
      match content with
      | 0x23 :: 0x21 :: rest =>
        let line := (rest.takeWhile (· ≠ Bytes.newline)).dropWhile fun b => b = 32 || b = 9
        let interpreter := Bytes.readable (line.takeWhile fun b => b ≠ 32 && b ≠ 9)
        let option := (Text.trim (Bytes.readable (line.dropWhile fun b => b ≠ 32 && b ≠ 9)).toList)
        let options := if option.isEmpty then [] else [String.ofList option]
        match depth with
        | 0 => throw .eloop
        | depth + 1 =>
          if interpreter = "" then throw .enoexec
          image m p depth interpreter (interpreter :: options ++ path :: arguments.drop 1)
      | _ => throw .enoexec
    | _ => throw .eacces

/-- The last name of a path, as far as it is kept for a process. -/
def commandName (path : String) : String :=
  String.ofList ((((path.splitOn "/").getLast?).getD "").toList.take 15)

/-- The most bytes that one argument, or one variable with its value, may have. -/
def argumentLimit : Nat := 131071

/-- Whether every argument and every variable is short enough to be handed to a program. -/
def handsOver (arguments : List String) (environment : List (String × String)) : Bool :=
  arguments.all (·.utf8ByteSize ≤ argumentLimit) &&
    environment.all fun (name, value) => name.utf8ByteSize + 1 + value.utf8ByteSize ≤ argumentLimit

/-- Executes another file.  The file has to be there before its arguments matter. -/
def execute (m : Machine τ) (p : Process τ) (path : String) (arguments : List String)
    (environment : List (String × String)) : Outcome τ Errno :=
  match m.image p 4 path arguments with
  | .error e => .answered e m
  | .ok (program, arguments) =>
    if !handsOver arguments environment then .answered .e2big m
    else .gone (m.modify p.pid fun p =>
      { p with
        name := commandName path
        task := some (m.software.round (m.software.start program arguments environment))
        executed := true
        descriptors := p.descriptors.filter fun entry => !entry.2.closeOnExec
        dispositions := p.dispositions.filter fun entry => entry.2 = .ignored
        caught := []
        environment })

/-- Executes a file; one of no known format is given to the shell of the system. -/
def executeFile (m : Machine τ) (p : Process τ) (path : String) (arguments : List String) :
    Outcome τ Errno :=
  match m.execute p path arguments p.environment with
  | .answered .enoexec m =>
    m.execute p "/bin/sh" ("/bin/sh" :: path :: arguments.drop 1) p.environment
  | outcome => outcome

/-- Looks for a command in directories.  The last failure counts, unless some file was not allowed
to be executed. -/
def searchCommand (m : Machine τ) (p : Process τ) (name : String) (arguments : List String) :
    List String → Bool → Errno → Outcome τ Errno
  | [], forbidden, failure => .answered (if forbidden then .eacces else failure) m
  | directory :: directories, forbidden, _ =>
    let path := if directory = "" then name else directory ++ "/" ++ name
    match m.executeFile p path arguments with
    | .answered .eacces m => searchCommand m p name arguments directories true .eacces
    | .answered .enoent m => searchCommand m p name arguments directories forbidden .enoent
    | .answered .enotdir m => searchCommand m p name arguments directories forbidden .enotdir
    | outcome => outcome

/-- Executes a command by its name.  A name with a slash is a path; another one is looked for in
the directories of the search path. -/
def executeCommand (m : Machine τ) (p : Process τ) (name : String) (arguments : List String) :
    Outcome τ Errno :=
  if name = "" then .answered .enoent m
  else if name.toList.contains '/' then m.executeFile p name arguments
  else
    let directories := (p.environment.lookup "PATH").getD "/bin:/usr/bin"
    m.searchCommand p name arguments (directories.splitOn ":") false .enoent

/-- The first child that has something to tell. -/
def waitChild (m : Machine τ) (p : Process τ) (child : Option Pid) (hang untraced : Bool) :
    Outcome τ (Except Errno (Option (Pid × WaitStatus))) :=
  let children := (m.childrenOf p.pid).filter fun q =>
    match child with
    | some pid => q.pid = pid
    | none => true
  if children.isEmpty then m.fail .echild
  else
    let news : Option (Pid × WaitStatus) := children.findSome? fun q =>
      match q.condition with
      | .ended status => some (q.pid, status)
      | .stopped s false => if untraced then some (q.pid, .stopped s) else none
      | _ => none
    match news with
    | some (pid, .stopped s) =>
      let m := m.modify pid fun q => { q with condition := .stopped s true }
      m.succeed (some (pid, .stopped s))
    | some (pid, status) => (m.forget pid).succeed (some (pid, status))
    | none =>
      if !hang then m.succeed none
      else if p.caught.isEmpty then .blocked m
      else m.fail .eintr

def killTargets (m : Machine τ) (p : Process τ) (target : Pid) : List Pid :=
  let chosen := m.processes.filter fun q =>
    if target > 0 then q.pid = target
    else if target = 0 then q.group = p.group
    else if target = -1 then q.pid ≠ p.pid
    else q.group = -target
  chosen.map (·.pid)

def sendSignal (m : Machine τ) (p : Process τ) (target : Pid) (signal : Option Signal) :
    Outcome τ (Except Errno Unit) :=
  let targets := m.killTargets p target
  if targets.isEmpty then m.fail .esrch
  else
    match signal with
    | none => m.succeed ()
    | some s => (targets.foldl (fun m pid => m.deliver pid s) m).succeed ()

/-- Puts a process into a group.  It has to be the caller or a child of the caller that has not
executed a file; the group is a new one of its own or one of the same session. -/
def setGroup (m : Machine τ) (p : Process τ) (pid group : Pid) : Outcome τ (Except Errno Unit) :=
  let pid := if pid = 0 then p.pid else pid
  match m.process? pid with
  | none => m.fail .esrch
  | some q =>
    let group := if group = 0 then pid else group
    if group < 0 then m.fail .einval
    else if !(q.pid = p.pid || q.parent = p.pid) then m.fail .esrch
    else if q.parent = p.pid && q.executed then m.fail .eacces
    else if q.session = q.pid then m.fail .eperm
    else if group ≠ pid && !m.processes.any (fun r => r.group = group && r.session = q.session) then
      m.fail .eperm
    else (m.modify pid fun q => { q with group }).succeed ()

def foregroundGroup (m : Machine τ) (p : Process τ) (fd : Descriptor) : Except Errno Pid :=
  if !m.isTerminal p fd then .error .enotty
  else
    match m.terminal with
    | some t => if t.session = p.session then .ok t.foreground else .error .enotty
    | none => .error .enotty

/-- Gives the terminal to a group.  Who is in the background and does not ignore the signal for it
is stopped instead. -/
def setForeground (m : Machine τ) (p : Process τ) (fd : Descriptor) (group : Pid) :
    Outcome τ (Except Errno Unit) :=
  match m.foregroundGroup p fd, m.terminal with
  | .ok current, some t =>
    if !m.hasGroup group then m.fail .esrch
    else if current ≠ p.group && p.disposition .terminalOutput ≠ .ignored then
      if m.isOrphaned p.group then m.fail .eio
      else .blocked (m.deliverToGroup p.group .terminalOutput)
    else { m with terminal := some { t with foreground := group } }.succeed ()
  | .error e, _ => m.fail e
  | .ok _, none => m.fail .enotty

/-! Directories and names. -/

def changeDirectory (m : Machine τ) (p : Process τ) (path : String) :
    Outcome τ (Except Errno Unit) :=
  match m.tree.walk p.directory path true with
  | .error e => m.fail e
  | .ok (.found id) =>
    if m.tree.isDirectory id then (m.modify p.pid fun p => { p with directory := id }).succeed ()
    else m.fail .enotdir
  | .ok _ => m.fail .enoent

def workingDirectory (m : Machine τ) (p : Process τ) : Except Errno String :=
  (m.tree.pathOf? p.directory).elim (.error .enoent) .ok

def makeDirectory (m : Machine τ) (p : Process τ) (path : String) : Outcome τ (Except Errno Unit) :=
  match m.tree.walk p.directory path false with
  | .error e => m.fail e
  | .ok (.absent directory name) =>
    { m with tree := (m.tree.add directory name (.directory directory [])).2 }.succeed ()
  | .ok (.found _) => m.fail .eexist
  | .ok (.processes _) => m.fail .enoent

/-- The directory and the name that an existing path consists of. -/
def namePlace (m : Machine τ) (p : Process τ) (path : String) :
    Except Errno (NodeId × String × NodeId) := do
  match ← m.tree.walk p.directory path false with
  | .found id =>
    let names := FileTree.names path
    let start := if FileTree.isAbsolute path then FileTree.root else p.directory
    match names.getLast? with
    | none => throw .einval
    | some name =>
      if name = ".." then throw .enotempty
      match ← m.tree.follow true 40 start names.dropLast with
      | .found directory => return (directory, name, id)
      | _ => throw .enoent
  | .absent _ _ => throw .enoent
  | .processes _ => throw .eperm

def removeDirectory (m : Machine τ) (p : Process τ) (path : String) :
    Outcome τ (Except Errno Unit) :=
  m.settle do
    let (directory, name, id) ← m.namePlace p path
    if !m.tree.isDirectory id then throw .enotdir
    if !(m.tree.entries id).isEmpty then throw .enotempty
    return ((), { m with tree := m.tree.unlink directory name })

def removeFile (m : Machine τ) (p : Process τ) (path : String) : Outcome τ (Except Errno Unit) :=
  m.settle do
    let (directory, name, id) ← m.namePlace p path
    if m.tree.isDirectory id then throw .eisdir
    return ((), { m with tree := m.tree.unlink directory name })

def rename (m : Machine τ) (p : Process τ) (source target : String) :
    Outcome τ (Except Errno Unit) :=
  m.settle do
    let (fromDirectory, fromName, id) ← m.namePlace p source
    let moving := m.tree.isDirectory id
    let (toDirectory, toName) ← match ← m.tree.walk p.directory target false with
      | .absent directory name =>
        if FileTree.meansDirectory target && !moving then throw .enotdir
        pure (directory, name)
      | .processes _ => throw .eperm
      | .found existing =>
        let (directory, name, _) ← m.namePlace p target
        if m.tree.isDirectory existing then
          if !moving then throw .eisdir
          if !(m.tree.entries existing).isEmpty then throw .enotempty
        else if moving then throw .enotdir
        pure (directory, name)
    let tree := m.tree.unlink fromDirectory fromName
    let tree := tree.unlink toDirectory toName
    let tree := tree.setEntries toDirectory (tree.entries toDirectory ++ [(toName, id)])
    let tree := match tree.node? id with
      | some (.directory _ entries) => tree.set id (.directory toDirectory entries)
      | _ => tree
    return ((), { m with tree })

def setExecutable (m : Machine τ) (p : Process τ) (path : String) (executable : Bool) :
    Outcome τ (Except Errno Unit) :=
  match m.tree.walk p.directory path true with
  | .error e => m.fail e
  | .ok (.found id) =>
    match m.tree.node? id with
    | some (.file content _ modified) =>
      { m with tree := m.tree.set id (.file content executable modified) }.succeed ()
    | _ => m.succeed ()
  | .ok _ => m.fail .enoent

/-- What is to be told about a node. -/
def nodeInfo (m : Machine τ) (id : NodeId) : FileInfo :=
  match m.tree.node? id with
  | some (.file content executable modified) => ⟨.regular, content.length, executable, id, modified⟩
  | some (.program _) => ⟨.regular, 1, true, id, 0⟩
  | some (.device _) => ⟨.device, 0, false, id, 0⟩
  | some (.link target) => ⟨.link, target.utf8ByteSize, true, id, 0⟩
  | _ => ⟨.directory, 4096, true, id, 0⟩

def inspect (m : Machine τ) (p : Process τ) (path : String) (follow : Bool) :
    Except Errno FileInfo := do
  match ← m.tree.walk p.directory path follow with
  | .absent _ _ => throw .enoent
  | .processes names =>
    match m.processEntry? p.pid names with
    | some (.directory pid) => return ⟨.directory, 0, true, pid.toNat, m.clock⟩
    | some (.status pid) => return ⟨.regular, 0, false, pid.toNat, m.clock⟩
    | none => throw .enoent
  | .found id => return m.nodeInfo id

/-- What is to be told about an open file. -/
def inspectDescriptor (m : Machine τ) (p : Process τ) (fd : Descriptor) : Except Errno FileInfo :=
  match m.openFileOf? p fd with
  | none => .error .ebadf
  | some (slot, file) =>
    match file.object with
    | .node id => .ok (m.nodeInfo id)
    | .processStatus _ => .ok ⟨.regular, 0, false, slot.file, m.clock⟩
    | _ => .ok ⟨.pipe, 0, false, slot.file, 0⟩

def listEntries (m : Machine τ) (p : Process τ) (path : String) : Except Errno (List String) := do
  match ← m.tree.walk p.directory path true with
  | .found id =>
    if m.tree.isDirectory id then return (m.tree.entries id).map (·.1) else throw .enotdir
  | .absent _ _ => throw .enoent
  | .processes _ => return []

/-! All requests. -/

def sleep (m : Machine τ) (p : Process τ) (duration : Nat) : Outcome τ Unit :=
  match p.wakeAt with
  | none => .blocked (m.modify p.pid fun p => { p with wakeAt := some (m.clock + duration) })
  | some deadline =>
    if deadline ≤ m.clock then .answered () (m.modify p.pid fun p => { p with wakeAt := none })
    else .blocked m

/-- Answers the request of a process. -/
def answer (m : Machine τ) (p : Process τ) : (r : Request τ) → Outcome τ r.Answer
  | .open path mode => m.openFile p path mode
  | .close fd => m.closeDescriptor p fd
  | .duplicate source target => m.duplicate p source target
  | .duplicateAbove source least => m.duplicateAbove p source least
  | .pipe => m.makePipe p
  | .read fd count => m.readDescriptor p fd count
  | .write fd data => m.writeDescriptor p fd data
  | .isTerminal fd => .answered (m.isTerminal p fd) m
  | .fork child => m.forkProcess p child
  | .execute path arguments environment => m.execute p path arguments environment
  | .executeCommand name arguments => m.executeCommand p name arguments
  | .environment => .answered p.environment m
  | .exit code => .gone (m.finish p.pid (.exited (code % 256)))
  | .wait child hang untraced => m.waitChild p child hang untraced
  | .kill target signal => m.sendSignal p target signal
  | .processId => .answered p.pid m
  | .parentId => .answered p.parent m
  | .setGroup pid group => m.setGroup p pid group
  | .foreground fd => .answered (m.foregroundGroup p fd) m
  | .setForeground fd group => m.setForeground p fd group
  | .setDisposition signal disposition =>
    if signal.isUncatchable then m.fail .einval
    else (m.modify p.pid fun p => p.setDisposition signal disposition).succeed ()
  | .caughtSignals => .answered p.caught (m.modify p.pid fun p => { p with caught := [] })
  | .changeDirectory path => m.changeDirectory p path
  | .workingDirectory => .answered (m.workingDirectory p) m
  | .makeDirectory path => m.makeDirectory p path
  | .removeDirectory path => m.removeDirectory p path
  | .remove path => m.removeFile p path
  | .rename source target => m.rename p source target
  | .setExecutable path executable => m.setExecutable p path executable
  | .inspect path follow => .answered (m.inspect p path follow) m
  | .inspectDescriptor fd => .answered (m.inspectDescriptor p fd) m
  | .entries path => .answered (m.listEntries p path) m
  | .sleep duration => m.sleep p duration

/-- Answers the request of the process with this number. -/
def perform (m : Machine τ) (pid : Pid) (r : Request τ) : Outcome τ r.Answer :=
  match m.process? pid with
  | some p => m.answer p r
  | none => .gone m

end Machine

end PipelineShell
