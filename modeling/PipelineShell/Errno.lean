/-
The error numbers of the system calls used here.

Three texts belong to an error number: its name, the short description that
this shell prints beside the name, and the sentence of the C library, which
programs and file operations print.  The last two differ for a few numbers.
-/

namespace PipelineShell

inductive Errno where
  | eperm | enoent | esrch | eintr | eio | e2big | enoexec | ebadf | echild | eagain | eacces
  | eexist | enotdir | eisdir | einval | emfile | enotty | enospc | espipe | epipe
  | enametoolong | enotempty | eloop
deriving DecidableEq, Repr

namespace Errno

def name : Errno → String
  | .eperm => "EPERM" | .enoent => "ENOENT" | .esrch => "ESRCH" | .eintr => "EINTR"
  | .eio => "EIO" | .e2big => "E2BIG" | .enoexec => "ENOEXEC" | .ebadf => "EBADF"
  | .echild => "ECHILD" | .eagain => "EAGAIN" | .eacces => "EACCES" | .eexist => "EEXIST"
  | .enotdir => "ENOTDIR" | .eisdir => "EISDIR" | .einval => "EINVAL" | .emfile => "EMFILE"
  | .enotty => "ENOTTY" | .enospc => "ENOSPC" | .espipe => "ESPIPE" | .epipe => "EPIPE"
  | .enametoolong => "ENAMETOOLONG" | .enotempty => "ENOTEMPTY" | .eloop => "ELOOP"

def number : Errno → Nat
  | .eperm => 1 | .enoent => 2 | .esrch => 3 | .eintr => 4 | .eio => 5 | .e2big => 7
  | .enoexec => 8 | .ebadf => 9 | .echild => 10 | .eagain => 11 | .eacces => 13 | .eexist => 17
  | .enotdir => 20 | .eisdir => 21 | .einval => 22 | .emfile => 24 | .enotty => 25
  | .enospc => 28 | .espipe => 29 | .epipe => 32 | .enametoolong => 36 | .enotempty => 39
  | .eloop => 40

/-- The short description. -/
def description : Errno → String
  | .eperm => "Operation not permitted" | .enoent => "No such file or directory"
  | .esrch => "No such process" | .eintr => "Interrupted system call" | .eio => "I/O error"
  | .e2big => "Argument list too long" | .enoexec => "Exec format error"
  | .ebadf => "Bad file number" | .echild => "No child processes" | .eagain => "Try again"
  | .eacces => "Permission denied" | .eexist => "File exists" | .enotdir => "Not a directory"
  | .eisdir => "Is a directory" | .einval => "Invalid argument"
  | .emfile => "Too many open files" | .enotty => "Not a typewriter"
  | .enospc => "No space left on device" | .espipe => "Illegal seek" | .epipe => "Broken pipe"
  | .enametoolong => "File name too long" | .enotempty => "Directory not empty"
  | .eloop => "Too many symbolic links encountered"

/-- The sentence of the C library. -/
def sentence : Errno → String
  | .eio => "Input/output error"
  | .ebadf => "Bad file descriptor"
  | .eagain => "Resource temporarily unavailable"
  | .enotty => "Inappropriate ioctl for device"
  | .eloop => "Too many levels of symbolic links"
  | e => e.description

/-- Name and short description, as in `EBADF: Bad file number`. -/
def message (e : Errno) : String := e.name ++ ": " ++ e.description

/-- The sentence with the number, as in `Is a directory (os error 21)`. -/
def numbered (e : Errno) : String := e.sentence ++ " (os error " ++ toString e.number ++ ")"

end Errno

end PipelineShell
