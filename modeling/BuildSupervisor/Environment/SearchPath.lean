import BuildSupervisor.Environment.Basic
import BuildSupervisor.Environment.Toolchain
/-!
# Search paths

A search path is a list of directories with colons between them.  `Environment.patch` puts the
directories of a toolchain in front of the search path in a variable, those left out that are on
it already, and remembers the value that the variable had; `Environment.restore` brings that value
back.
-/

namespace BuildSupervisor

namespace SearchPath

/-- The octet of `:`. -/
def colon : UInt8 := 58

/-- The directories of a search path.  Nothing between two colons is a directory too, the one
    without a name. -/
def entries (value : Bytes) : List Path :=
  (Text.cut colon value).map Path.mk

/-- The search path of some directories; none of them may hold a colon. -/
def join? (dirs : List Path) : Option Bytes :=
  if dirs.any fun d => d.octets.contains colon then none
  else some (Text.join [colon] (dirs.map Path.octets))

/-- The directories that are neither present nor spelled the second time. -/
def additions (present : List Path) : List Path → List Path
  | [] => []
  | dir :: dirs =>
    if present.any dir.same then additions present dirs
    else dir :: additions (dir :: present) dirs

end SearchPath

/-- The value of a variable before it was patched. -/
structure SavedVariable where
  name : String
  previous : Option Bytes
  deriving DecidableEq, Repr

/-- Why the search path is not what the toolchain needs. -/
inductive PatchWarning where
  | missing (toolchain : ToolchainMissing)
  | colonInDirectory (name : String)
  deriving DecidableEq, Repr

/-- What is said of a search path that is not what the toolchain needs. -/
def PatchWarning.message : PatchWarning → String
  | .missing toolchain => toolchain.message
  | .colonInDirectory name =>
    "could not add toolchain directories to " ++ name
      ++ ": path segment contains separator `:`"

/-- What a patch did: nothing, perhaps with a warning, or a change that can be undone. -/
inductive Patch where
  | unchanged (warning : Option PatchWarning)
  | changed (saved : SavedVariable)
  deriving DecidableEq, Repr

namespace Patch

/-- Whether the variable was changed. -/
def isChanged : Patch → Bool
  | .unchanged _ => false
  | .changed _ => true

def warning? : Patch → Option PatchWarning
  | .unchanged warning => warning
  | .changed _ => none

/-- What it takes to undo the patch. -/
def saved? : Patch → Option SavedVariable
  | .unchanged _ => none
  | .changed saved => some saved

end Patch

namespace Environment

/-- The directories on the search path in a variable; none if it is not set. -/
def searchPath (env : Environment) (name : String) : List Path :=
  match env.value name with
  | some value => SearchPath.entries value
  | none => []

/-- Puts the located directories in front of the search path in a variable. -/
def patch (env : Environment) (name : String) (located : Located) : Patch × Environment :=
  match located with
  | .error missing => (.unchanged (some (.missing missing)), env)
  | .ok dirs =>
    let present := env.searchPath name
    match SearchPath.additions present dirs with
    | [] => (.unchanged none, env)
    | added =>
      match SearchPath.join? (added ++ present) with
      | none => (.unchanged (some (.colonInDirectory name)), env)
      | some value => (.changed ⟨name, env.value name⟩, env.set name value)

/-- Whether a process outlives the patch of its own environment: a variable that is changed has to
    have a name that variables can have. -/
def bearsPatch (env : Environment) (name : String) (located : Located) : Bool :=
  !(env.patch name located).1.isChanged || isSettable name

/-- Brings a patched variable back to the value it had. -/
def restore (env : Environment) (saved : SavedVariable) : Environment :=
  env.put saved.name saved.previous

end Environment

end BuildSupervisor
