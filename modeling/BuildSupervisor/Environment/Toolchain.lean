import BuildSupervisor.Environment.FileSystem
/-!
# Toolchains

A toolchain is known by a name and the directories in which its programs may be installed.
Locating it yields the directories that exist; they have to be on the search path for the
programs to be found.
-/

namespace BuildSupervisor

/-- None of the directories of a toolchain exists. -/
structure ToolchainMissing where
  name : String
  searched : String
  deriving DecidableEq, Repr

def ToolchainMissing.message (m : ToolchainMissing) : String :=
  "could not locate the " ++ m.name ++ " toolchain (searched: " ++ m.searched ++ ")"

/-- The answer to the question which directories have to be on the search path. -/
abbrev Located := Except ToolchainMissing (List Path)

/-- A named toolchain and the directories in which it may be installed. -/
structure Toolchain where
  name : String
  dirs : List Path
  deriving DecidableEq, Repr

namespace Toolchain

/-- Whether there is anything to locate. -/
def isConfigured (t : Toolchain) : Bool :=
  !t.dirs.isEmpty

/-- The directories that exist, in the order in which they are configured. -/
def locate (t : Toolchain) (fs : FileSystem) : Located :=
  if t.dirs.isEmpty then .ok []
  else
    match t.dirs.filter fs.isDirectory with
    | [] => .error ⟨t.name, String.intercalate ", " (t.dirs.map Path.text)⟩
    | found => .ok found

end Toolchain

end BuildSupervisor
