/-
Numbers of processes and of process groups.
-/

namespace PipelineShell

/-- A process or a process group; 0 and -1 stand for none. -/
abbrev Pid := Int

end PipelineShell
