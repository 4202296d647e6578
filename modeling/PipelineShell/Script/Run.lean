/-
Running scripts: one round takes the top frame off and does what it asks for.

A simple command is run in three steps: its command substitutions are made, one
after the other, in processes of their own; its words are expanded; then it is
a function, a command of the language, or a program.  A program runs in a new
process, unless nothing comes after it.
-/
import PipelineShell.Script.Builtins
import PipelineShell.Script.Parser

namespace PipelineShell.Script

open Program

namespace State

variable {τ : Type}

/-! Programs. -/

/-- Says why a program could not be executed and ends. -/
def executeFailed {α : Type} (s : State) (line : Nat) (name : String) (e : Errno) :
    Program τ α := do
  match e with
  | .enoent =>
    s.complain line (name ++ ": not found")
    exit 127
  | .enotdir =>
    s.complain line (name ++ ": not found")
    exit 127
  | .eloop =>
    s.complain line (name ++ ": " ++ e.sentence)
    exit 127
  | .enametoolong =>
    s.complain line (name ++ ": " ++ e.sentence)
    exit 127
  | e =>
    s.complain line (name ++ ": " ++ e.sentence)
    exit 126

/-- Executes a file; one of no known format is run as a script. -/
def executeFile (path : String) (words : List String) (environment : List (String × String)) :
    Program τ Errno := do
  match ← ask (.execute path words environment) with
  | .enoexec => ask (.execute "/bin/sh" ("/bin/sh" :: path :: words.drop 1) environment)
  | e => return e

/-- Looks for a program in directories. -/
def executeIn (name : String) (words : List String) (environment : List (String × String)) :
    List String → Errno → Program τ Errno
  | [], failure => return failure
  | directory :: rest, failure => do
    let path := if directory = "" then name else directory ++ "/" ++ name
    match ← executeFile path words environment with
    | .enoent => executeIn name words environment rest failure
    | .enotdir => executeIn name words environment rest failure
    | e => executeIn name words environment rest e

/-- Becomes the program that an invocation names. -/
def execute {α : Type} (s : State) (i : Invocation) : Program τ α := do
  match i.words with
  | [] => exit s.status
  | name :: _ =>
    let p := i.assignments.foldl
      (fun p (name, value) => (p.assign name value).publish name) s.parameters
    let e ←
      if name.toList.contains '/' then executeFile name i.words p.environment
      else
        let path :=
          (p.value? "PATH").getD "/usr/local/sbin:/usr/local/bin:/usr/sbin:/usr/bin:/sbin:/bin"
        executeIn name i.words p.environment (path.splitOn ":") .enoent
    s.executeFailed i.line (if i.replacing then "exec: " ++ name else name) e

/-! Simple commands. -/

/-- Expands file name patterns. -/
def expandPatterns : List MarkedText → Program τ (List String)
  | [] => return []
  | p :: rest => do
    let here ← Pattern.words p
    return here ++ (← expandPatterns rest)

def assignAll (s : State) (assignments : List (String × String)) : State :=
  assignments.foldl (fun s (name, value) => s.assign name value) s

/-- Waits for a process in the foreground. -/
def awaitProcess (s : State) (pid : Pid) : State := s.push (.await [pid] pid)

/-- Starts a process with these things to do. -/
def start? (s : State) (enter : State → τ) (line : Nat) (frames : List Frame) :
    Program τ (Except State Pid) := do
  match ← ask (.fork (enter (s.child frames))) with
  | .ok pid => return .ok pid
  | .error _ => return .error (← s.abandon line "Cannot fork")

/-- Runs something with redirections that are undone behind it. -/
def redirecting (s : State) (line : Nat) (rs : List Redirection) (fatal : Bool)
    (go : State → Program τ State) : Program τ State := do
  if rs.isEmpty then go s
  else
    let saved ← Redirection.save rs
    match ← Redirection.applyAll rs with
    | .ok () => go (s.push (.restore saved))
    | .error text =>
      s.complain line text
      Redirection.restore saved
      return if fatal then s.leave 2 else s.setStatus 2

/-- Gives variables other values while a command runs in the shell's own process. -/
def withAssignments (s : State) (assignments : List (String × String))
    (go : State → Program τ State) :
    Program τ State := do
  let t ← go (s.assignAll assignments)
  return { t with
    parameters := { t.parameters with
      bindings := assignments.foldl
        (fun bindings (name, _) =>
          let others := bindings.filter (·.1 ≠ name)
          match s.parameters.binding? name with
          | some v => (name, v) :: others
          | none => others)
        t.parameters.bindings } }

/-- Calls a function. -/
def callFunction (s : State) (i : Invocation) (body : Command) : Program τ State :=
  s.redirecting i.line i.redirections false fun s =>
    let positional := s.parameters.positional
    let s := (s.assignAll i.assignments).push (.call positional [])
    let s := { s with parameters := { s.parameters with positional := i.words.tail } }
    return s.push (.run body false)

/-- Runs a program, in a new process unless nothing comes after it. -/
def runProgram (s : State) (enter : State → τ) (i : Invocation) (last : Bool) :
    Program τ State := do
  if last && s.traps.isEmpty then return { s with frames := [.execute i] }
  match ← s.start? enter i.line [.execute i] with
  | .ok pid => return s.awaitProcess pid
  | .error s => return s

/-- Runs an expanded simple command. -/
def invoke (s : State) (enter : State → τ) (i : Invocation) (last : Bool) : Program τ State := do
  match i.words with
  | [] =>
    let s := (s.assignAll i.assignments).setStatus (s.substituted.getD 0)
    s.redirecting i.line i.redirections false fun s => return s
  | "exec" :: words =>
    match ← Redirection.applyAll i.redirections with
    | .error text => s.abandon i.line text
    | .ok () =>
      if words.isEmpty then return (s.assignAll i.assignments).setStatus 0
      return { s with frames := [.execute { i with words, redirections := [], replacing := true }] }
  | "command" :: "-v" :: name :: _ =>
    s.redirecting i.line i.redirections false fun s => do
      if (s.functions.lookup name).isSome || Builtin.isName name then
        Builtin.put s i.line "command" (Bytes.ofText (name ++ "\n"))
      else
        let path := "/usr/bin/" ++ name
        match ← ask (.inspect path true) with
        | .ok _ => Builtin.put s i.line "command" (Bytes.ofText (path ++ "\n"))
        | .error _ => return s.setStatus 127
  | "command" :: name :: words => builtinOrProgram s { i with words := name :: words } name words
  | name :: words =>
    match if Builtin.isSpecial name then none else s.functions.lookup name with
    | some body => s.callFunction i body
    | none => builtinOrProgram s i name words
where
  builtinOrProgram (s : State) (i : Invocation) (name : String) (words : List String) :
      Program τ State :=
    match Builtin.find? name with
    | some f =>
      let special := Builtin.isSpecial name
      s.redirecting i.line i.redirections special fun s =>
        if special then f i.line words (s.assignAll i.assignments)
        else if i.assignments.isEmpty || name = "read" then f i.line words s
        else s.withAssignments i.assignments (f i.line words)
    | none => s.runProgram enter i last

/-- Expands a simple command and runs it. -/
def runSimple (s : State) (enter : State → τ) (last : Bool) (line : Nat)
    (assignments : List (String × Phrase)) (words : List Phrase) (redirects : List Redirect) :
    Program τ State := do
  let expansion := do
    let words ← Expansion.wordsOfAll words
    let redirections ← Expansion.redirections redirects
    let assignments ← Expansion.assignments assignments
    return (words, redirections, assignments)
  match StateT.run expansion s.parameters with
  | .error text => s.abandon line text
  | .ok ((marked, redirections, assignments), parameters) =>
    let words ← expandPatterns marked
    let s := { s with parameters }
    let s ← s.invoke enter { line, assignments, words, redirections } last
    return { s with substituted := none }

/-! Compound commands. -/

/-- The text that a loop, a `case` or a redirection takes its words from, expanded. -/
def expanding {α : Type} (s : State) (line : Nat) (e : Expansion.Expanding α)
    (go : State → α → Program τ State) : Program τ State :=
  match StateT.run e s.parameters with
  | .error text => s.abandon line text
  | .ok (a, parameters) => go { s with parameters } a

/-- The clause whose pattern fits the text. -/
def findClause (text : String) : List (List Phrase × Command) → Expansion.Expanding (Option Command)
  | [] => return none
  | (choices, body) :: rest => do
    if ← anyFits choices then return some body else findClause text rest
where
  anyFits : List Phrase → Expansion.Expanding Bool
    | [] => return false
    | choice :: more => do
      if Pattern.matchesText (← Expansion.patternOf choice) text then return true else anyFits more

/-- Starts the stages of a pipeline; `previous` is the end of the pipe before them. -/
def startStages (s : State) (enter : State → τ) :
    Option Descriptor → List Command → List Pid → Program τ (Except State (List Pid))
  | _, [], pids => return .ok pids
  | previous, stage :: rest, pids => do
    let ends ← if rest.isEmpty then pure none else do
      match ← ask .pipe with
      | .ok ends => pure (some ends)
      | .error _ => pure none
    let plumb := Frame.plumb previous (ends.map (·.2)) (ends.map (·.1)).toList
    match ← s.start? enter 1 [plumb, .run stage true] with
    | .error s => return .error s
    | .ok pid =>
      match previous with
      | some fd =>
        let _ ← ask (.close fd)
      | none => pure ()
      match ends with
      | some (_, writeEnd) =>
        let _ ← ask (.close writeEnd)
      | none => pure ()
      startStages s enter (ends.map (·.1)) rest (pids ++ [pid])

/-- Runs a command whose command substitutions have been made. -/
def runCommand (s : State) (enter : State → τ) (last : Bool) : Command → Program τ State
  | .nothing => return s
  | .simple line assignments words redirects =>
    s.runSimple enter last line assignments words redirects
  | .negated c => return (s.push .negate).push (.run c false)
  | .both first second => return (s.push (.whenStatus true second last)).push (.run first false)
  | .either first second => return (s.push (.whenStatus false second last)).push (.run first false)
  | .sequence first second => return (s.push (.run second last)).push (.run first false)
  | .choice condition yes no => return (s.push (.branch yes no last)).push (.run condition false)
  | .loop untilTrue condition body => return s.push (.again untilTrue condition body false)
  | .define name body =>
    return { s with functions := (name, body) :: s.functions.filter (·.1 ≠ name) }.setStatus 0
  | .each name words body =>
    match words with
    | none => return (s.setStatus 0).push (.each name s.parameters.positional body)
    | some words =>
      s.expanding 1 (Expansion.wordsOfAll words) fun s marked => do
        return (s.setStatus 0).push (.each name (← expandPatterns marked) body)
  | .select word clauses =>
    let choose := do
      let text ← Expansion.textOf word
      findClause text clauses
    s.expanding 1 choose fun s body =>
      match body with
      | some body => return (s.setStatus 0).push (.run body last)
      | none => return s.setStatus 0
  | .redirected line c redirects =>
    s.expanding line (Expansion.redirections redirects) fun s rs =>
      s.redirecting line rs false fun s => return s.push (.run c false)
  | .subshell c => do
    if last && s.traps.isEmpty then return { s with frames := [.run c true] }
    match ← s.start? enter 1 [.run c true] with
    | .ok pid => return s.awaitProcess pid
    | .error s => return s
  | .background c => do
    match ← s.start? enter 1 [.detach, .run c true] with
    | .ok pid =>
      return { s with parameters := { s.parameters with lastBackground := some pid } }.setStatus 0
    | .error s => return s
  | .pipeline stages => do
    match ← s.startStages enter none stages [] with
    | .error s => return s
    | .ok pids => return s.push (.await pids (pids.getLast?.getD 0))

/-- Runs a command, after its next command substitution if it has one. -/
def runNext (s : State) (enter : State → τ) (c : Command) (last : Bool) : Program τ State := do
  match c.substitution? with
  | none => s.runCommand enter last c
  | some source =>
    match ← ask .pipe with
    | .error _ => s.abandon 1 "Pipe call failed"
    | .ok (readEnd, writeEnd) =>
      let frames := [Frame.plumb none (some writeEnd) [readEnd], .text ⟨source.toList, 1⟩ true]
      match ← s.start? enter 1 frames with
      | .error s => return s
      | .ok pid =>
        let _ ← ask (.close writeEnd)
        return s.push (.collect readEnd pid [] c last)

/-! Reading a line into variables. -/

def isSpaceSeparator (separators : List Char) (c : Char) : Bool :=
  separators.contains c && (c = ' ' || c = '\t' || c = '\n')

/-- Assigns the parts of a line to names; the last name gets all that is left. -/
def assignParts (separators : List Char) : List String → MarkedText → State → State
  | [], _, s => s
  | [name], line, s =>
    let line := line.dropWhile fun (c, escaped) => !escaped && isSpaceSeparator separators c
    let line := (line.reverse.dropWhile fun (c, escaped) =>
      !escaped && isSpaceSeparator separators c).reverse
    s.assign name (Pattern.plain line)
  | name :: names, line, s =>
    let line := line.dropWhile fun (c, escaped) => !escaped && isSpaceSeparator separators c
    let isSeparator := fun ((c, escaped) : Char × Bool) => !escaped && separators.contains c
    let part := line.takeWhile fun entry => !isSeparator entry
    let rest := line.drop part.length
    let afterSpace := rest.dropWhile fun (c, escaped) => !escaped && isSpaceSeparator separators c
    let rest := match afterSpace with
      | (c, false) :: more =>
        if separators.contains c && !isSpaceSeparator separators c then more else afterSpace
      | rest => rest
    assignParts separators names rest (s.assign name (Pattern.plain part))

/-- The characters of a line of marked bytes, of which the last one comes first. -/
def lineText (line : List (UInt8 × Bool)) : MarkedText :=
  let bytes := line.reverse
  if bytes.any (·.2) then bytes.map fun (b, escaped) => (Char.ofNat b.toNat, escaped)
  else (Bytes.readable (bytes.map (·.1))).toList.map (·, false)

/-- A line has been read. -/
def finishReading (s : State) (names : List String) (line : List (UInt8 × Bool))
    (status : Nat) : State :=
  (assignParts s.parameters.separators names (lineText line) s).setStatus status

/-- Reads one more byte of a line. -/
def readByte (s : State) (raw : Bool) (names : List String) (line : List (UInt8 × Bool))
    (escaped : Bool) : Program τ State := do
  match ← ask (.read .input 1) with
  | .error _ => return s.finishReading names line 1
  | .ok [] => return s.finishReading names line 1
  | .ok (b :: _) =>
    if escaped then
      let line := if b = Bytes.newline then line else (b, true) :: line
      return s.push (.reading raw names line false)
    else if b = Bytes.newline then return s.finishReading names line 0
    else if b = 92 && !raw then return s.push (.reading raw names line true)
    else return s.push (.reading raw names ((b, false) :: line) false)

/-! Waiting. -/

/-- Says that a signal ended a process, unless that was to be expected. -/
def reportEnd (status : WaitStatus) : Program τ Unit :=
  match status with
  | .killed signal =>
    if signal = .interrupt || signal = .brokenPipe then return ()
    else say .error (signal.text ++ "\n")
  | _ => return ()

/-- Remembers the signals that interrupted a call. -/
def interrupted (s : State) : Program τ State := do
  let signals : List Signal ← ask .caughtSignals
  return { s with pending := s.pending ++ signals }

/-- Waits for the next of some processes. -/
def await (s : State) (pids : List Pid) (last : Pid) : Program τ State := do
  match pids with
  | [] => return s
  | pid :: rest =>
    match ← ask (.wait (some pid) true false) with
    | .ok (some (_, status)) =>
      reportEnd status
      let s := if pid = last then s.setStatus status.code else s
      return s.push (.await rest last)
    | .error .eintr => return (← s.interrupted).push (.await (pid :: rest) last)
    | _ => return s.push (.await rest last)

/-- Waits for children in the background. -/
def pause (s : State) (child : Option Pid) : Program τ State := do
  match ← ask (.wait child true false) with
  | .ok (some (_, status)) =>
    if child.isNone then return s.push (.pause none)
    reportEnd status
    return s.setStatus status.code
  | .error .eintr => return (← s.interrupted).setStatus 130
  | _ => return if child.isSome then s.setStatus 127 else s

/-! Beginning and ending. -/

/-- The options before the arguments of a script: their letters and what is left. -/
def splitOptions : List String → List Char × List String
  | [] => ([], [])
  | argument :: rest =>
    match argument.toList with
    | ['-', '-'] => ([], rest)
    | ['-'] => ([], rest)
    | '-' :: c :: cs =>
      let (letters, rest) := splitOptions rest
      (c :: cs ++ letters, rest)
    | _ => ([], argument :: rest)

/-- Finds out where the commands come from. -/
def begin (s : State) (arguments : List String) : Program τ State := do
  let pid : Pid ← ask .processId
  let parent : Pid ← ask .parentId
  let (letters, operands) := splitOptions arguments
  let s := Builtin.setOptions s true letters
  let rename := fun (s : State) (name : String) (positional : List String) =>
    { s with parameters := { s.parameters with name, positional } }
  let s := { s with parent, parameters := { s.parameters with pid } }
  let s := s.assign "PPID" (toString parent)
  if letters.contains 'c' then
    match operands with
    | [] =>
      say .error (s.parameters.name ++ ": 0: -c requires an argument\n")
      return s.leave 2
    | text :: rest =>
      let s := match rest with
        | name :: positional => rename s name positional
        | [] => s
      return s.push (.text ⟨text.toList, 1⟩ true)
  else
    match operands with
    | path :: positional =>
      if letters.contains 's' then
        return (rename s s.parameters.name operands).push (.input 0 ⟨[], 1⟩)
      match ← ask (.open path { reads := true, closeOnExec := true }) with
      | .error e =>
        s.complain 0 ("cannot open " ++ path ++ ": " ++ fileProblem false e)
        return s.leave 2
      | .ok fd =>
        let kept ← ask (.duplicateAbove fd 10)
        let _ ← ask (.close fd)
        return (rename s path positional).push (.input (kept.toOption.getD fd) ⟨[], 1⟩)
    | [] => return s.push (.input 0 ⟨[], 1⟩)

/-- How much of a script is read at once. -/
def blockSize : Nat := 8192

/-- A text cannot be read. -/
def faulty (s : State) (fault : Fault) : Program τ State :=
  s.abandon fault.lineNumber ("Syntax error: " ++ fault.message)

/-- Nothing but blanks and newlines is left. -/
def isBlankText (text : List Char) : Bool := text.all fun c => c = ' ' || c = '\t' || c = '\n'

/-- Runs the next line of a text. -/
def nextOfText (s : State) (c : Cursor) (last : Bool) : Program τ State :=
  match StateT.run Parser.line c with
  | .error fault => s.faulty fault
  | .ok (none, _) => return s
  | .ok (some command, rest) =>
    if isBlankText rest.text then return s.push (.run command last)
    else return (s.push (.text rest last)).push (.run command false)

/-- Runs the next line of a file, reading more of it if that is needed. -/
def nextOfInput (s : State) (fd : Descriptor) (c : Cursor) : Program τ State := do
  let more := show Program τ State from do
    match ← ask (.read fd blockSize) with
    | .ok [] => return s.push (.text c false)
    | .error _ => return s.push (.text c false)
    | .ok data => return s.push (.input fd ⟨c.text ++ (Bytes.readable data).toList, c.line⟩)
  match StateT.run Parser.line c with
  | .error (.unexpected line what expected) => s.faulty (.unexpected line what expected)
  | .error _ => more
  | .ok (none, _) => more
  | .ok (some command, rest) =>
    if rest.text.isEmpty && c.text.getLast? ≠ some '\n' then more
    else return (s.push (.input fd rest)).push (.run command false)

/-- Takes the places of the standard streams. -/
def plumb (input output : Option Descriptor) (unused : List Descriptor) : Program τ Unit := do
  closeAll unused
  move input 0
  move output 1
where
  closeAll : List Descriptor → Program τ Unit
    | [] => return ()
    | fd :: rest => do
      let _ ← ask (.close fd)
      closeAll rest
  move (source : Option Descriptor) (target : Descriptor) : Program τ Unit := do
    match source with
    | none => return ()
    | some fd =>
      if fd ≠ target then
        let _ ← ask (.duplicate fd target)
        let _ ← ask (.close fd)

/-- Reads from nowhere. -/
def detach : Program τ Unit := do
  match ← ask (.open "/dev/null" { reads := true }) with
  | .error _ => return ()
  | .ok fd =>
    if fd ≠ 0 then
      let _ ← ask (.duplicate fd 0)
      let _ ← ask (.close fd)

def resetSignals : List Signal → Program τ Unit
  | [] => return ()
  | signal :: rest => do
    let _ ← ask (.setDisposition signal .standard)
    resetSignals rest

/-! Rounds. -/

/-- What a loop does when it is left or gone on with from within. -/
def unwindLoop (s : State) (again : State → State) : Unwinding → State
  | .breaking 0 => { s with unwinding := none }
  | .breaking 1 => { s with unwinding := none }
  | .breaking (n + 2) => { s with unwinding := some (.breaking (n + 1)) }
  | .continuing 0 => again { s with unwinding := none }
  | .continuing 1 => again { s with unwinding := none }
  | .continuing (n + 2) => { s with unwinding := some (.continuing (n + 1)) }
  | .returning => s

/-- Takes the values back that a function has hidden. -/
def reveal (s : State) (hidden : List (String × Option Variable)) : State :=
  { s with
    parameters := { s.parameters with
      bindings := hidden.foldl
        (fun bindings (name, old) =>
          let others := bindings.filter (·.1 ≠ name)
          match old with
          | some v => (name, v) :: others
          | none => others)
        s.parameters.bindings } }

/-- Leaves a function. -/
def leaveCall (s : State) (positional : List String)
    (hidden : List (String × Option Variable)) : State :=
  let s := s.reveal hidden
  { s with parameters := { s.parameters with positional } }

/-- Takes a frame off while commands are cut short. -/
def unwind (s : State) (u : Unwinding) : Frame → Program τ State
  | .restore saved => do
    Redirection.restore saved
    return s
  | .tested untilTrue condition body =>
    return s.unwindLoop (·.push (.again untilTrue condition body true)) u
  | .again untilTrue condition body _ =>
    return s.unwindLoop (·.push (.again untilTrue condition body true)) u
  | .each name values body => return s.unwindLoop (·.push (.each name values body)) u
  | .call positional hidden =>
    return { s.leaveCall positional hidden with unwinding := none }
  | .input fd c => return { s.push (.input fd c) with unwinding := none }
  | .leave code => return { s.push (.leave code) with unwinding := none }
  | _ => return s

/-- A frame within which a failing command does not end a strict script. -/
def isTest : Frame → Bool
  | .whenStatus _ _ _ => true
  | .negate => true
  | .branch _ _ _ => true
  | .tested _ _ _ => true
  | _ => false

/-- Ends a strict script in which a command has failed. -/
def checkFailure (s : State) : State :=
  if s.strict && s.status ≠ 0 && s.unwinding.isNone && !s.frames.any isTest then s.leave s.status
  else s

/-- Does what a frame asks for. -/
def runFrame (s : State) (enter : State → τ) : Frame → Program τ State
  | .begin arguments => s.begin arguments
  | .text c last => s.nextOfText c last
  | .input fd c => s.nextOfInput fd c
  | .run c last => do
    let t ← s.runNext enter c last
    match c with
    | .simple _ _ _ _ => return if t.frames.length ≤ s.frames.length then t.checkFailure else t
    | _ => return t
  | .execute i => do
    match ← Redirection.applyAll i.redirections with
    | .ok () => s.execute i
    | .error text =>
      s.complain i.line text
      exit 2
  | .whenStatus success c last =>
    return if (s.status = 0) = success then s.push (.run c last) else s
  | .negate => return s.setStatus (if s.status = 0 then 1 else 0)
  | .branch yes no last =>
    if s.status = 0 then return s.push (.run yes last)
    else
      match no with
      | .nothing => return s.setStatus 0
      | no => return s.push (.run no last)
  | .again untilTrue condition body started =>
    let s := if started then s else s.setStatus 0
    return (s.push (.tested untilTrue condition body)).push (.run condition false)
  | .tested untilTrue condition body =>
    if (s.status = 0) = !untilTrue then
      return (s.push (.again untilTrue condition body true)).push (.run body false)
    else return s.setStatus 0
  | .each name values body =>
    match values with
    | [] => return s
    | value :: rest =>
      return ((s.assign name value).push (.each name rest body)).push (.run body false)
  | .restore saved => do
    Redirection.restore saved
    return s
  | .await pids last => do
    let t ← s.await pids last
    return if pids.length ≤ 1 then t.checkFailure else t
  | .collect fd pid gathered c last => do
    match ← ask (.read fd blockSize) with
    | .ok (b :: data) => return s.push (.collect fd pid ((b :: data) :: gathered) c last)
    | _ =>
      let _ ← ask (.close fd)
      let bytes := gathered.reverse.flatten
      let trimmed := (bytes.reverse.dropWhile (· = Bytes.newline)).reverse
      let text := Bytes.readable (trimmed.filter (· ≠ 0))
      return s.push (.collected pid text c last)
  | .collected pid text c last => do
    match ← ask (.wait (some pid) true false) with
    | .error .eintr => return (← s.interrupted).push (.collected pid text c last)
    | result =>
      let code := match result with
        | .ok (some (_, status)) => status.code
        | _ => 0
      return { s.setStatus code with substituted := some code }.push (.run (c.fill text) last)
  | .call positional hidden => return s.leaveCall positional hidden
  | .reading raw names line escaped => s.readByte raw names line escaped
  | .pause child => s.pause child
  | .plumb input output unused => do
    plumb input output unused
    return s
  | .detach => do
    detach
    return s
  | .resetTraps signals => do
    resetSignals signals
    return s
  | .status n => return s.setStatus n
  | .leave code => exit code

/-- Puts the actions of signals that have come before what is left to do. -/
def takeSignals (s : State) : Program τ State := do
  if s.traps.isEmpty then return s
  let signals : List Signal ← ask .caughtSignals
  let signals := s.pending ++ signals
  let actions := signals.filterMap fun signal => s.traps.lookup (some signal)
  let s := { s with pending := [] }
  return actions.reverse.foldl
    (fun s action => (s.push (.status s.status)).push (.text ⟨action.toList, 1⟩ false)) s

/-- A frame that waits for something, before which no trap is run. -/
def isWaiting : Frame → Bool
  | .await _ _ => true
  | .collect _ _ _ _ _ => true
  | .collected _ _ _ _ => true
  | .leave _ => true
  | _ => false

/-- One round of a script. -/
def round (s : State) (enter : State → τ) : Program τ State := do
  let waiting := (s.frames.head?.map isWaiting).getD false
  let s ← if waiting then pure s else s.takeSignals
  match s.frames with
  | [] => return s.leave s.status
  | frame :: rest =>
    let s := { s with frames := rest }
    match s.unwinding with
    | some u => s.unwind u frame
    | none => s.runFrame enter frame

end State

end PipelineShell.Script
