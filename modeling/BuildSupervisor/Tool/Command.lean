import BuildSupervisor.Path.Basic
import BuildSupervisor.Tool.Words
/-!
# Commands

The command that runs a build tool.
-/

namespace BuildSupervisor

/-- A program with its arguments, and the directory in which it runs unless that is the current
    one. -/
structure ToolCommand where
  program : String
  args : List String
  workingDir : Option Path
  deriving DecidableEq, Repr

namespace ToolCommand

def ofWords? : List String → Option ToolCommand
  | [] => none
  | program :: args => some ⟨program, args, none⟩

/-- The command of a command line; `none` if it cannot be split or has no words. -/
def ofLine? (line : String) : Option ToolCommand :=
  (Words.split? line.toList).bind fun words => ofWords? (words.map String.ofList)

/-- The same command in a directory. -/
def inDirectory (c : ToolCommand) (dir : Path) : ToolCommand :=
  { c with workingDir := some dir }

/-- The program and its arguments. -/
def words (c : ToolCommand) : List String :=
  c.program :: c.args

/-- The words with a blank between neighbours, as they are shown; nothing is quoted. -/
def display (c : ToolCommand) : String :=
  String.intercalate " " c.words

end ToolCommand

end BuildSupervisor
