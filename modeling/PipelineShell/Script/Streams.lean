/-
Redirections of the shell's language, and putting the streams back.

Before a descriptor is redirected for one command, a copy of it is kept from
10 on.
-/
import PipelineShell.Script.State

namespace PipelineShell.Script

open Program

variable {τ : Type}

/-- How an error with a file is told. -/
def fileProblem (created : Bool) (e : Errno) : String :=
  if e = .enoent || e = .enotdir then
    if created then "Directory nonexistent" else "No such file"
  else e.sentence

namespace Redirection

def defaultDescriptor : RedirectKind → Descriptor
  | .input => 0
  | .readWrite => 0
  | .copyInput => 0
  | _ => 1

def mode : RedirectKind → OpenMode
  | .output => { writes := true, create := true, truncate := true }
  | .append => { writes := true, create := true, append := true }
  | .readWrite => { reads := true, writes := true, create := true }
  | _ => { reads := true }

/-- Opens a file on a descriptor. -/
def openFile (r : Redirection) : Program τ (Except String Unit) := do
  let created := (mode r.kind).create
  let problem := fun (e : Errno) =>
    (if created then "cannot create " else "cannot open ") ++ r.target ++ ": " ++
      fileProblem created e
  match ← ask (.open r.target (mode r.kind)) with
  | .error e => return .error (problem e)
  | .ok fd =>
    if fd = r.fd then return .ok ()
    let result ← ask (.duplicate fd r.fd)
    let _ ← ask (.close fd)
    return result.mapError problem

/-- Makes a descriptor a copy of another one, or closes it. -/
def copy (r : Redirection) : Program τ (Except String Unit) := do
  if r.target = "-" then
    let _ ← ask (.close r.fd)
    return .ok ()
  match r.target.toNat? with
  | none => return .error "Syntax error: Bad fd number"
  | some source =>
    return (← ask (.duplicate source r.fd)).mapError fun e => r.target ++ ": " ++ e.sentence

def apply (r : Redirection) : Program τ (Except String Unit) :=
  match r.kind with
  | .copyInput => r.copy
  | .copyOutput => r.copy
  | _ => r.openFile

def applyAll : List Redirection → Program τ (Except String Unit)
  | [] => return .ok ()
  | r :: rest => do
    match ← r.apply with
    | .ok () => applyAll rest
    | .error text => return .error text

/-- Keeps copies of the descriptors that are to be redirected. -/
def save : List Redirection → Program τ (List (Descriptor × Option Descriptor))
  | [] => return []
  | r :: rest => do
    let kept ← ask (.duplicateAbove r.fd 10)
    return (r.fd, kept.toOption) :: (← save rest)

/-- Puts descriptors back; the one that was saved last is put back first. -/
def restore : List (Descriptor × Option Descriptor) → Program τ Unit
  | [] => return ()
  | (fd, kept) :: rest => do
    restore rest
    match kept with
    | none =>
      let _ ← ask (.close fd)
    | some copy =>
      let _ ← ask (.duplicate copy fd)
      let _ ← ask (.close copy)

end Redirection

namespace Expansion

/-- The redirections with their targets. -/
def redirections : List Redirect → Expanding (List Redirection)
  | [] => return []
  | r :: rest => do
    let target ← textOf r.target
    let fd := r.fd.getD (Redirection.defaultDescriptor r.kind)
    return ⟨fd, r.kind, target⟩ :: (← redirections rest)

def assignments : List (String × Phrase) → Expanding (List (String × String))
  | [] => return []
  | (name, phrase) :: rest => do
    let value ← textOf phrase
    return (name, value) :: (← assignments rest)

end Expansion

end PipelineShell.Script
