/-
Options and operands of a command.

An option is a letter behind a dash; several may share one dash.  Some take a
value, from the rest of their argument or from the next one.  Options may
stand behind operands, and everything behind `--` is an operand.
-/

namespace PipelineShell.Utility

/-- The options that a command knows. -/
structure OptionTable where
  flags : List Char := []
  /-- Options with a value. -/
  valued : List Char := []

inductive OptionError where
  | unknown (letter : Char)
  | unrecognized (argument : String)
  | missingValue (letter : Char)
deriving DecidableEq, Repr

structure Arguments where
  /-- In the order of the arguments; a flag has the empty value. -/
  options : List (Char × String) := []
  operands : List String := []
deriving DecidableEq, Repr

def Arguments.has (a : Arguments) (letter : Char) : Bool := a.options.any (·.1 = letter)

/-- The value that was given last. -/
def Arguments.value? (a : Arguments) (letter : Char) : Option String :=
  ((a.options.filter (·.1 = letter)).getLast?).map (·.2)

namespace OptionTable

/-- The options in one argument.  An option that still lacks its value is given apart. -/
def letters (t : OptionTable) : List Char → Except OptionError (List (Char × String) × Option Char)
  | [] => .ok ([], none)
  | c :: rest =>
    if t.flags.contains c then do
      let (options, pending) ← t.letters rest
      return ((c, "") :: options, pending)
    else if t.valued.contains c then
      if rest.isEmpty then .ok ([], some c) else .ok ([(c, String.ofList rest)], none)
    else .error (.unknown c)

def parse (t : OptionTable) : List String → Except OptionError Arguments
  | [] => .ok {}
  | argument :: rest =>
    match argument.toList with
    | ['-', '-'] => .ok { operands := rest }
    | '-' :: '-' :: _ => .error (.unrecognized argument)
    | '-' :: c :: cs => do
      match ← t.letters (c :: cs) with
      | (options, none) =>
        let more ← t.parse rest
        return { more with options := options ++ more.options }
      | (options, some letter) =>
        match rest with
        | [] => throw (.missingValue letter)
        | value :: rest =>
          let more ← t.parse rest
          return { more with options := options ++ (letter, value) :: more.options }
    | _ => do
      let more ← t.parse rest
      return { more with operands := argument :: more.operands }

end OptionTable

/-- The second line of most complaints about arguments. -/
def hint (command : String) : String := "Try '" ++ command ++ " --help' for more information.\n"

def OptionError.message (e : OptionError) (command : String) : String :=
  let first := match e with
    | .unknown letter => "invalid option -- '" ++ String.singleton letter ++ "'"
    | .unrecognized argument => "unrecognized option '" ++ argument ++ "'"
    | .missingValue letter => "option requires an argument -- '" ++ String.singleton letter ++ "'"
  command ++ ": " ++ first ++ "\n" ++ hint command

/-- Writes `-5` as `-n 5` at the beginning. -/
def expandCounts (arguments : List String) : List String :=
  match arguments with
  | [] => []
  | first :: rest =>
    match first.toList with
    | '-' :: c :: cs =>
      if (c :: cs).all Char.isDigit then "-n" :: String.ofList (c :: cs) :: rest else arguments
    | _ => arguments

end PipelineShell.Utility
