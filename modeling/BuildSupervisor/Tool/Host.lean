import BuildSupervisor.Environment.SearchPath
import BuildSupervisor.Tool.Run
/-!
# Hosts

A host has files, and programs at some of them.  It runs a command: a program
whose name has a slash in it is where its name says, any other one is looked for in the directories
of the search path.
-/

namespace BuildSupervisor

/-- What a program is given. -/
structure ProgramInput where
  /-- The name by which the program was called, and its arguments. -/
  words : List String
  environment : Environment
  /-- The files, seen from the directory in which the program runs. -/
  files : FileSystem

/-- What a program does. -/
abbrev Program := ProgramInput → ToolRun

/-- The files and programs of a machine. -/
structure Host where
  files : FileSystem
  program? : Location → Option Program

namespace Host

def programAt (h : Host) (fs : FileSystem) (p : Path) : Except FileError Program :=
  match fs.find p with
  | .error e => .error e
  | .ok (location, _) =>
    match h.program? location with
    | some program => .ok program
    | none => .error .denied

def defaultSearchPath : Bytes :=
  Utf8.encode "/bin:/usr/bin"

/-- A name in a directory; an empty directory is the current one. -/
def inDirectory (dir : Path) (name : Bytes) : Path :=
  if dir.isEmpty then ⟨name⟩ else ⟨dir.octets ++ Path.slash :: name⟩

/-- Whether the search for a program goes on in the next directory. -/
def isPassedOver : FileError → Bool
  | .notFound | .notADirectory | .denied => true
  | _ => false

/-- What went wrong in a search, after what has gone wrong before: the last failure, but a program
    that may not be run is remembered. -/
def failureAfter (before next : FileError) : FileError :=
  if before = .denied then .denied else next

/-- Looks for a program in directories; `failed` is what went wrong so far. -/
def search (h : Host) (fs : FileSystem) (name : Bytes) (failed : FileError) :
    List Path → Except FileError Program
  | [] => .error failed
  | dir :: dirs =>
    match h.programAt fs (inDirectory dir name) with
    | .ok program => .ok program
    | .error e =>
      if isPassedOver e then search h fs name (failureAfter failed e) dirs else .error e

def programNamed (h : Host) (env : Environment) (fs : FileSystem) (name : Bytes) :
    Except FileError Program :=
  if Path.slash ∈ name then h.programAt fs ⟨name⟩
  else if name.isEmpty then .error .notFound
  else if FileSystem.longestName < name.length then .error .nameTooLong
  else h.search fs name .notFound (SearchPath.entries ((env.value "PATH").getD defaultSearchPath))

/-- Whether an octet that ends a text is inside a command. -/
def hasNul (c : ToolCommand) : Bool :=
  c.words.any (fun word => 0 ∈ Utf8.encode word)
    || (c.workingDir.any fun dir => 0 ∈ dir.octets)

def launch (h : Host) (c : ToolCommand) : Launch :=
  fun env =>
    if hasNul c then .error .nulInCommand
    else do
      let fs ← match c.workingDir with
        | some dir => h.files.enter dir
        | none => .ok h.files
      let program ← h.programNamed env fs (Utf8.encode c.program)
      return program ⟨c.words, env, fs⟩

end Host

end BuildSupervisor
