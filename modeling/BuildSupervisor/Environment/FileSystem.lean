import BuildSupervisor.Path.Basic
/-!
# Files

What a build asks of the file system is whether a path is a directory and which octets a file
holds.  A file system is given by its directories and files, each named by the names on the way
from the root, and by the directory in which relative paths start.
-/

namespace BuildSupervisor

/-- The names on the way from the root. -/
abbrev Location := List Bytes

/-- The directories and files there are, and what the files hold. -/
structure FileSystem where
  directories : List Location
  files : List (Location × Bytes)
  working : Location
  deriving DecidableEq, Repr

/-- Why a path cannot be used. -/
inductive FileError where
  | notFound
  | denied
  | notADirectory
  | isADirectory
  | notText
  | nameTooLong
  /-- An octet that ends a text stands inside a word of a command. -/
  | nulInCommand
  /-- An octet that ends a text stands inside the name of a file. -/
  | nulInPath
  deriving DecidableEq, Repr

namespace FileError

/-- What the system says of an error. -/
def message : FileError → String
  | .notFound => "No such file or directory (os error 2)"
  | .denied => "Permission denied (os error 13)"
  | .notADirectory => "Not a directory (os error 20)"
  | .isADirectory => "Is a directory (os error 21)"
  | .notText => "stream did not contain valid UTF-8"
  | .nameTooLong => "File name too long (os error 36)"
  | .nulInCommand => "nul byte found in provided data"
  | .nulInPath => "file name contained an unexpected NUL byte"

end FileError

/-- What stands at a location. -/
inductive FileNode where
  | directory
  | file (octets : Bytes)
  deriving DecidableEq, Repr

namespace FileSystem

/-- What stands at a location, if anything does. -/
def node? (fs : FileSystem) (at_ : Location) : Option FileNode :=
  if at_ ∈ fs.directories then some .directory
  else (fs.files.lookup at_).map FileNode.file

/-- The octets that the name of a file may have. -/
def longestName : Nat := 255

/-- The octets that a path may have. -/
def longestPath : Nat := 4095

def step (fs : FileSystem) (here : Location) (c : Path.Component) : Except FileError Location :=
  match c with
  | .root => .ok []
  | .current | .parent | .name _ =>
    match fs.node? here with
    | none => .error .notFound
    | some (.file _) => .error .notADirectory
    | some .directory =>
      match c with
      | .parent => .ok here.dropLast
      | .name octets =>
        if longestName < octets.length then .error .nameTooLong else .ok (here ++ [octets])
      | _ => .ok here

def walk (fs : FileSystem) (here : Location) : List Path.Component → Except FileError Location
  | [] => .ok here
  | c :: rest =>
    match fs.step here c with
    | .ok next => walk fs next rest
    | .error e => .error e

/-- Whether a path is written so that only a directory can stand there. -/
def wantsDirectory (p : Path) : Bool :=
  match p.split.2.getLast? with
  | some piece => Path.isIdle piece
  | none => false

/-- Where a path leads, and what stands there. -/
def find (fs : FileSystem) (p : Path) : Except FileError (Location × FileNode) :=
  if 0 ∈ p.octets then .error .nulInPath
  else if p.isEmpty then .error .notFound
  else if longestPath < p.octets.length then .error .nameTooLong
  else
    match fs.walk fs.working p.components with
    | .error e => .error e
    | .ok location =>
      match fs.node? location with
      | none => .error .notFound
      | some (.file octets) =>
        if wantsDirectory p then .error .notADirectory else .ok (location, .file octets)
      | some .directory => .ok (location, .directory)

def isDirectory (fs : FileSystem) (p : Path) : Bool :=
  match fs.find p with
  | .ok (_, .directory) => true
  | _ => false

def read (fs : FileSystem) (p : Path) : Except FileError Bytes :=
  match fs.find p with
  | .ok (_, .file octets) => .ok octets
  | .ok (_, .directory) => .error .isADirectory
  | .error e => .error e

/-- The same files seen from another directory. -/
def enter (fs : FileSystem) (dir : Path) : Except FileError FileSystem :=
  match fs.find dir with
  | .ok (location, .directory) => .ok { fs with working := location }
  | .ok (_, .file _) => .error .notADirectory
  | .error e => .error e

def readText (fs : FileSystem) (p : Path) : Except FileError String :=
  match fs.read p with
  | .error e => .error e
  | .ok octets =>
    match Utf8.decode? octets with
    | some text => .ok text
    | none => .error .notText

/-- The locations on the way from the root to a location, both ends included. -/
def way (location : Location) : List Location :=
  (List.range (location.length + 1)).map location.take

/-- No files and no directories but the one from which they are seen, and those around it. -/
def bare (working : Location) : FileSystem :=
  ⟨way working, [], working⟩

/-- Where a path leads if all directories on the way are there. -/
def locationOf (fs : FileSystem) (p : Path) : Location :=
  p.components.foldl
    (fun here c =>
      match c with
      | .root => []
      | .current => here
      | .parent => here.dropLast
      | .name octets => here ++ [octets])
    fs.working

/-- The same files with something at a path, and with the directories on the way. -/
def record (fs : FileSystem) (p : Path) (node : FileNode) : FileSystem :=
  let location := fs.locationOf p
  match node with
  | .directory => { fs with directories := way location ++ fs.directories }
  | .file octets =>
    { fs with
      directories := way location.dropLast ++ fs.directories
      files := (location, octets) :: fs.files }

end FileSystem

end BuildSupervisor
