import BuildSupervisor.Environment.Basic
import BuildSupervisor.Environment.FileSystem
import BuildSupervisor.Tool.Command
/-!
# Runs of a tool

The run of a tool is known by what it writes to its two pipes, in the pieces in which they deliver
it, and by how it ends.
-/

namespace BuildSupervisor

/-- How a run ends. -/
inductive ExitStatus where
  | exited (code : UInt8)
  | killed (signal : Nat)
  deriving DecidableEq, Repr

namespace ExitStatus

/-- Whether the tool did what was asked of it. -/
def succeeded (s : ExitStatus) : Bool :=
  s = exited 0

/-- The exit code; a tool that is killed has none. -/
def code? : ExitStatus → Option Int
  | exited code => some code.toNat
  | killed _ => none

end ExitStatus

/-- The run of a tool, seen from the one who started it. -/
structure ToolRun where
  stdout : List Bytes
  stderr : List Bytes
  status : ExitStatus
  deriving DecidableEq, Repr

/-- The run of a command in an environment, or why there is none. -/
abbrev Launch := Environment → Except FileError ToolRun

namespace ToolCommand

/-- What is said of a command that could not be run. -/
def failure (c : ToolCommand) (e : FileError) : String :=
  "failed to run `" ++ c.display ++ "`: cannot spawn " ++ c.program ++ ": " ++ e.message ++ "\n"

end ToolCommand

end BuildSupervisor
