/-
Paths of files: their parts, and the directories above.

Only the text of a path counts here, not what it leads to.  Empty parts and
single points mean nothing, except for a single point at the very beginning.
-/

namespace PipelineShell.FilePath

/-- The parts of a path. -/
def parts (path : String) : List String :=
  let pieces := path.splitOn "/"
  let named := pieces.filter fun piece => piece ≠ "" && piece ≠ "."
  if pieces.head? = some "." then "." :: named else named

/-- The path that consists of these parts; `rooted` if it begins at the root. -/
def ofParts (rooted : Bool) (parts : List String) : String :=
  (if rooted then "/" else "") ++ String.intercalate "/" parts

/-- The paths of the directories above, the nearest first.  The empty path is where a relative
path begins. -/
def ancestors (path : String) : List String :=
  let parts := parts path
  (List.range parts.length).reverse.map fun n => ofParts (path.startsWith "/") (parts.take n)

end PipelineShell.FilePath
