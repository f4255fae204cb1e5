import BuildSupervisor.Shell.Evaluation
import BuildSupervisor.Tool.Host
/-!
# A host with a shell

The programs of the host are the shell and a few utilities.  A program of the shell is run as a
tool: its input holds nothing, and what it writes to its two other descriptors goes to the pipes of
the tool.
-/

namespace BuildSupervisor.Shell

open ShellM

/-- What a program does with its arguments; it answers with its exit code. -/
abbrev Utility := Self → List String → ShellM Nat

namespace Utility

/-- Writes files one after the other, or the input. -/
def cat : Utility := fun _ args => do
  let names := if args.isEmpty then ["-"] else args
  let codes ← names.mapM fun name => do
    if name = "-" then
      write 1 (← readAll)
      return 0
    match (← files).read ⟨octetsOf name⟩ with
    | .ok octets =>
      write 1 (textOf octets)
      return 0
    | .error e =>
      write 2 ((← shell).name ++ ": " ++ name ++ ": " ++ reasonOf e ++ "\n")
      return 1
  return codes.foldl max 0

/-- Whether an argument holds options of `echo`. -/
def isEchoOption (arg : String) : Bool :=
  match arg.toList with
  | '-' :: c :: cs => (c :: cs).all ['n', 'e', 'E'].contains
  | _ => false

/-- Writes its arguments; unlike the command of the shell, it takes backslashes as they are unless it
    is told otherwise. -/
def echo : Utility := fun _ args => do
  let letters := (args.takeWhile isEchoOption).flatMap String.toList
  let escaped := (letters.filter fun c => c = 'e' || c = 'E').getLast? = some 'e'
  write 1 (Builtin.lineOf (letters.contains 'n') escaped (args.dropWhile isEchoOption))
  return 0

/-- The search path where no other one is named. -/
def standardPath : String :=
  "/usr/local/sbin:/usr/local/bin:/usr/sbin:/usr/bin:/sbin:/bin"

/-- Switches the options before other arguments; says whether a script is the next one of those. -/
def startOptions : List String → ShellM (Bool × List String)
  | [] => return (false, [])
  | arg :: rest => do
    match arg.toList with
    | ['-', '-'] => return (false, rest)
    | '-' :: c :: letters =>
      Builtin.switch true ((c :: letters).filter (· ≠ 'c'))
      let (wantsScript, rest) ← startOptions rest
      return (wantsScript || (c :: letters).contains 'c', rest)
    | _ => return (false, arg :: rest)

/-- Runs the script that is its first argument behind `-c`, that stands in the file that this
    argument names, or that it gets as its input. -/
def sh : Utility := fun self args => do
  let directory := pathOf (← shell).directory
  if (← value? "PATH").isNone then assign "PATH" standardPath
  putVariable "PWD" (Variable.export_ ⟨some directory, none⟩)
  let (wantsScript, args) ← startOptions args
  let script ← match args with
    | [] =>
      if wantsScript then fail "-c requires an argument"
      change fun s => { s with args := [] }
      readAll
    | first :: rest =>
      if wantsScript then
        change fun s => { s with name := rest.head?.getD s.name, args := rest.tail }
        pure first
      else
        let text ← scriptAt "" first
        change fun s => { s with name := first, args := rest }
        pure text
  Evaluation.runText self false script

def all : List (String × Utility) :=
  [("[", fun _ args => Builtin.bracket args), ("cat", cat), ("dash", sh), ("echo", echo),
    ("false", fun _ _ => return 1), ("printf", fun _ args => Builtin.printf args),
    ("pwd", fun _ _ => Builtin.pwd), ("sh", sh), ("sleep", fun _ _ => return 0),
    ("test", fun _ args => Builtin.test "test" args), ("true", fun _ _ => return 0)]

end Utility

def programDirectories : List Location :=
  [[Utf8.encode "bin"], [Utf8.encode "usr", Utf8.encode "bin"]]

/-- The programs by where they are. -/
def installed : List (Location × Utility) :=
  programDirectories.flatMap fun dir =>
    Utility.all.map fun (name, utility) => (dir ++ [Utf8.encode name], utility)

/-- The process as a program that is called with words. -/
def programShell (s : Interpreter) (words : List String) : Interpreter :=
  { s with
    name := words.head?.getD ""
    args := words.tail
    own := fun _ => none
    functions := []
    options := []
    status := 0
    line := 0
    loops := 0
    calls := 0 }

/-- Becomes the program at a path; only a signal for this process ends it here. -/
def become (self : Self) (path : String) (words : List String) : ShellM ExitStatus := do
  let refuse (e : FileError) : ShellM ExitStatus :=
    return .exited (UInt8.ofNat (← Evaluation.refuse (words.head?.getD "") e))
  match (← files).find ⟨octetsOf path⟩ with
  | .error e => refuse e
  | .ok (location, _) =>
    match installed.lookup location with
    | none => refuse .denied
    | some utility =>
      change fun s => programShell s words
      try
        Evaluation.toEnd do setStatus (← utility self words.tail)
      catch
        | .killed process signal =>
          if process = (← shell).process then return .killed signal
          else throw (.killed process signal)
        | stop => throw stop

/-- A shell in which commands are nested at most so deep. -/
def selfOf : Nat → Self
  | 0 =>
    { run := fun _ _ => fail "too deep"
      expand := fun _ _ => fail "too deep"
      become := fun _ _ => fail "too deep"
      output := fun _ => fail "too deep" }
  | depth + 1 =>
    { run := fun tested c => Evaluation.run (selfOf depth) tested c
      expand := fun quoted w => Expansion.segments (selfOf depth) quoted w
      become := fun path words => become (selfOf depth) path words
      output := fun c => Evaluation.output (selfOf depth) c }

/-- How deep commands may be nested. -/
def deepest : Nat := 100000

def toolProcess : Nat := 1000

/-- The machine in which a tool starts. -/
def startOf (input : ProgramInput) : Machine where
  world :=
    { files := input.files
      streams := #[.nothing, .tool .normal, .tool .error]
      written := []
      lastProcess := toolProcess }
  shell :=
    { name := ""
      args := []
      environment := input.environment
      own := fun _ => none
      functions := []
      options := []
      status := 0
      outputStatus := 0
      directory := input.files.working
      descriptors := [(0, 0), (1, 1), (2, 2)]
      line := 0
      loops := 0
      calls := 0
      process := toolProcess }

/-- What was written to a pipe of the tool. -/
def writtenTo (kind : OutputKind) (w : World) : List Bytes :=
  w.written.reverse.filterMap fun (other, text) => if other = kind then some (octetsOf text) else none

/-- The program at a path, as the program of a tool. -/
def programOf (path : String) : Program :=
  fun input =>
    let words := input.words.map fun word => textOf (Utf8.encode word)
    let ended := fun status (m : Machine) =>
      ToolRun.mk (writtenTo .normal m.world) (writtenTo .error m.world) status
    match (selfOf deepest).become path words (startOf input) with
    | .ok status m => ended status m
    | .error _ m => ended (.exited 2) m

/-- The files of a host with the programs among them. -/
def hostOf (fs : FileSystem) : Host where
  files :=
    { fs with
      directories := fs.directories ++ [[], [Utf8.encode "usr"]] ++ programDirectories
      files := fs.files ++ installed.map fun p => (p.1, []) }
  program? location :=
    (installed.lookup location).map fun _ => programOf (pathOf location)

end BuildSupervisor.Shell
