/-
The `echo` command: its arguments with a space between them and a newline.

The command of the system knows options and replaces escapes only when it is
asked to.  The one that is part of the system's shell knows one option and
always replaces them.
-/
import PipelineShell.Utility.Escape

namespace PipelineShell.Utility.Echo

structure Options where
  newline : Bool := true
  escapes : Bool := false

/-- An argument that consists of option letters. -/
def isOption (argument : String) : Bool :=
  match argument.toList with
  | '-' :: c :: cs => (c :: cs).all fun c => c = 'n' || c = 'e' || c = 'E'
  | _ => false

def Options.add (o : Options) (c : Char) : Options :=
  match c with
  | 'n' => { o with newline := false }
  | 'e' => { o with escapes := true }
  | 'E' => { o with escapes := false }
  | _ => o

/-- Takes the options off the arguments. -/
def options : Options → List String → Options × List String
  | o, [] => (o, [])
  | o, argument :: rest =>
    if isOption argument then options ((argument.toList.drop 1).foldl Options.add o) rest
    else (o, argument :: rest)

def text (o : Options) (d : Escape.Dialect) (arguments : List String) : Bytes :=
  let joined := String.intercalate " " arguments
  let (body, stop) :=
    if o.escapes then Escape.decode d joined.toList else (Bytes.ofText joined, false)
  if o.newline && !stop then body ++ [Bytes.newline] else body

/-- What the command of the system prints. -/
def output (arguments : List String) : Bytes :=
  let (o, arguments) := options {} arguments
  text o { hexadecimal := true, escapeKey := true, leadingZero := true } arguments

/-- What the command of the system's shell prints. -/
def shellOutput (arguments : List String) : Bytes :=
  match arguments with
  | "-n" :: arguments => text ⟨false, true⟩ { leadingZero := true } arguments
  | arguments => text ⟨true, true⟩ { leadingZero := true } arguments

end PipelineShell.Utility.Echo
