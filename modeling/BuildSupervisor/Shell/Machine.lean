import BuildSupervisor.Shell.Value
import BuildSupervisor.Console
import BuildSupervisor.Tool.Run
/-!
# The state of a shell

What all processes share is the `World`: the files, the streams to which descriptors lead, and what
was written to the pipes of the tool.  What belongs to one process is its `Interpreter`.  A subshell
works on a copy of the latter, and what it does to the world stays.
-/

namespace BuildSupervisor.Shell

/-- Where a descriptor leads. -/
inductive Stream where
  /-- A pipe of the tool. -/
  | tool (kind : OutputKind)
  /-- Holds nothing and keeps nothing. -/
  | nothing
  /-- A text that is read; what is written goes to its end. -/
  | held (text : List Char)
  /-- A file to the end of which is written. -/
  | file (location : Location)

/-- What all processes share. -/
structure World where
  files : FileSystem
  streams : Array Stream
  /-- What was written to the pipes of the tool, last first. -/
  written : List (OutputKind × String)
  /-- The number of the process that was started last. -/
  lastProcess : Nat

/-- What a name stands for: a variable of the shell, or one that programs get too. -/
structure Variable where
  own : Option String
  exported : Option Bytes

namespace Variable

def value? (v : Variable) : Option String :=
  v.own.or (v.exported.map textOf)

/-- The variable with another value; what programs get, they go on to get. -/
def assign (v : Variable) (text : String) : Variable :=
  if v.exported.isSome then ⟨none, some (octetsOf text)⟩ else ⟨some text, none⟩

/-- The variable as one that programs get. -/
def export_ (v : Variable) : Variable :=
  ⟨none, v.value?.map octetsOf⟩

end Variable

/-- What belongs to one shell. -/
structure Interpreter where
  /-- The name by which the shell or its script was called. -/
  name : String
  args : List String
  /-- The variables that programs get. -/
  environment : Environment
  /-- The variables that they do not get. -/
  own : String → Option String
  functions : List (String × Command)
  /-- The letters of the options that are on. -/
  options : List Char
  /-- How the command before ended. -/
  status : Nat
  /-- How the last command ended whose output was meant. -/
  outputStatus : Nat
  directory : Location
  /-- The numbers of the streams to which descriptors lead. -/
  descriptors : List (Nat × Nat)
  line : Nat
  /-- The loops around the command that runs. -/
  loops : Nat
  /-- The functions around the command that runs. -/
  calls : Nat
  /-- The number of the process. -/
  process : Nat

structure Machine where
  world : World
  shell : Interpreter

/-- Why what comes next is not run. -/
inductive Stop where
  /-- The process has ended. -/
  | ended (status : ExitStatus)
  /-- A signal has ended a process. -/
  | killed (process signal : Nat)
  /-- Something went wrong that was complained about. -/
  | failed
  | breakLoop (levels : Nat)
  | continueLoop (levels : Nat)
  /-- A function or a script has ended. -/
  | returned

/-- What a shell does. -/
abbrev ShellM (α : Type) := EStateM Stop Machine α

namespace ShellM

def shell : ShellM Interpreter :=
  return (← get).shell

/-- Changes the shell that runs. -/
def change (f : Interpreter → Interpreter) : ShellM Unit :=
  modify fun m => { m with shell := f m.shell }

def changeWorld (f : World → World) : ShellM Unit :=
  modify fun m => { m with world := f m.world }

/-- Says how a command has ended. -/
def setStatus (status : Nat) : ShellM Unit :=
  change fun s => { s with status := status }

/-- The files, seen from the directory of the shell. -/
def files : ShellM FileSystem := do
  let m ← get
  return { m.world.files with working := m.shell.directory }

/-- Whether an option is on. -/
def isOn (option : Char) : ShellM Bool :=
  return (← shell).options.contains option

/-- Does something at the end of a body, however that ends. -/
def afterwards (body : ShellM α) (last : ShellM Unit) : ShellM α := do
  let a ← try body catch stop =>
    last
    throw stop
  last
  return a

/-! ## Streams -/

/-- Adds a stream; answers its number. -/
def addStream (s : Stream) : ShellM Nat := do
  let m ← get
  set { m with world := { m.world with streams := m.world.streams.push s } }
  return m.world.streams.size

def streamOf? (descriptor : Nat) : ShellM (Option Nat) :=
  return (← shell).descriptors.lookup descriptor

/-- Lets a descriptor lead to a stream, or nowhere. -/
def connect (descriptor : Nat) (stream : Option Nat) : ShellM Unit :=
  change fun s =>
    let others := s.descriptors.filter fun d => d.1 ≠ descriptor
    { s with descriptors := (stream.map fun n => (descriptor, n)).toList ++ others }

/-- The files with something more at the end of one of them. -/
def appendTo (fs : FileSystem) (location : Location) (octets : Bytes) : FileSystem :=
  let old := (fs.files.lookup location).getD []
  { fs with files := (location, old ++ octets) :: fs.files.filter fun f => f.1 ≠ location }

/-- Writes to a descriptor. -/
def write (descriptor : Nat) (text : String) : ShellM Unit := do
  match ← streamOf? descriptor with
  | none => return
  | some n =>
    changeWorld fun w =>
      match w.streams[n]? with
      | some (.tool kind) => { w with written := (kind, text) :: w.written }
      | some (.held old) => { w with streams := w.streams.set! n (.held (old ++ text.toList)) }
      | some (.file location) => { w with files := appendTo w.files location (octetsOf text) }
      | some .nothing | none => w

/-- Takes all that can be read from the input. -/
def readAll : ShellM String := do
  match ← streamOf? 0 with
  | none => return ""
  | some n =>
    match (← get).world.streams[n]? with
    | some (.held text) =>
      changeWorld fun w => { w with streams := w.streams.set! n (.held []) }
      return String.ofList text
    | _ => return ""

/-! ## Complaints -/

/-- Says what went wrong. -/
def complain (message : String) : ShellM Unit := do
  let s ← shell
  write 2 (s.name ++ ": " ++ Text.showNat s.line ++ ": " ++ message ++ "\n")

/-- Says what went wrong and goes no further. -/
def fail (message : String) : ShellM α := do
  complain message
  setStatus 2
  throw .failed

def leave (status : Nat) : ShellM α := do
  setStatus status
  throw (.ended (.exited (UInt8.ofNat status)))

/-! ## Variables -/

def variableNamed (name : String) : ShellM Variable := do
  let s ← shell
  return ⟨s.own name, s.environment.value name⟩

def putVariable (name : String) (v : Variable) : ShellM Unit :=
  change fun s =>
    { s with
      own := fun other => if other = name then v.own else s.own other
      environment := s.environment.put name v.exported }

def value? (name : String) : ShellM (Option String) :=
  return (← variableNamed name).value?

/-- The value of a variable; empty if it has none. -/
def value (name : String) : ShellM String :=
  return (← value? name).getD ""

/-- Gives a variable a value. -/
def assign (name text : String) : ShellM Unit := do
  putVariable name ((← variableNamed name).assign text)

/-! ## Files -/

/-- What is said of a file that cannot be used. -/
def reasonOf : FileError → String
  | .notFound => "No such file or directory"
  | .denied => "Permission denied"
  | .notADirectory => "Not a directory"
  | .isADirectory => "Is a directory"
  | .nameTooLong => "File name too long"
  | e => e.message

/-- What is said of a file that a shell cannot use, where `missing` says that there is none. -/
def shellReason (missing : String) : FileError → String
  | .notFound | .notADirectory => missing
  | e => reasonOf e

/-- A location as a path. -/
def pathOf (location : Location) : String :=
  textOf (Path.slash :: Text.join [Path.slash] location)

/-- The octets of a script at a path; what is said where there is none starts with a text. -/
def scriptAt (start path : String) : ShellM String := do
  match (← files).read ⟨octetsOf path⟩ with
  | .ok octets => return textOf octets
  | .error e => fail (start ++ "cannot open " ++ path ++ ": " ++ shellReason "No such file" e)

/-- The place of a file that holds nothing. -/
def nullDevice : Location :=
  [Utf8.encode "dev", Utf8.encode "null"]

/-- A stream from which a file is read. -/
def openInput (path : String) : ShellM Stream := do
  match (← files).find ⟨octetsOf path⟩ with
  | .ok (_, .directory) => return .nothing
  | .ok (_, .file octets) => return .held (textOf octets).toList
  | .error e => fail ("cannot open " ++ path ++ ": " ++ shellReason "No such file" e)

/-- A stream to which a file is written, behind what it holds if that is kept. -/
def openOutput (path : String) (keeps : Bool) : ShellM Stream := do
  let refuse (e : FileError) : ShellM Stream :=
    fail ("cannot create " ++ path ++ ": " ++ shellReason "Directory nonexistent" e)
  let fs ← files
  let location := fs.locationOf ⟨octetsOf path⟩
  match fs.find ⟨octetsOf path⟩ with
  | .ok (_, .directory) => refuse .isADirectory
  | .error e =>
    if e ≠ .notFound || fs.node? location.dropLast ≠ some .directory then refuse e
    else
      changeWorld fun w => { w with files := appendTo w.files location [] }
      return .file location
  | .ok _ =>
    if location = nullDevice then return .nothing
    unless keeps do
      changeWorld fun w =>
        { w with
          files := { w.files with
            files := (location, []) :: w.files.files.filter fun f => f.1 ≠ location } }
    return .file location

/-- Lets a descriptor lead to a file. -/
def connectFile (descriptor : Nat) (direction : Direction) (path : String) : ShellM Unit := do
  let standard := [("/dev/stdin", 0), ("/dev/stdout", 1), ("/dev/stderr", 2)]
  match standard.lookup path with
  | some n => connect descriptor (← streamOf? n)
  | none =>
    let stream ←
      if direction = .input then openInput path else openOutput path (direction = .append)
    connect descriptor (some (← addStream stream))

end ShellM

end BuildSupervisor.Shell
