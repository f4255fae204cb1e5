import BuildSupervisor.Shell.Builtin
import BuildSupervisor.Shell.Reader
/-!
# Running commands

A simple command is run in this order: its words get their values, its descriptors are changed, its
assignments are made, and what its name stands for is run.  A name stands for a function, for a
command of the shell, or for a program on the search path.
-/

namespace BuildSupervisor.Shell

namespace Evaluation

open ShellM

/-! ## Scripts -/

/-- How often a part of a script may be run again. -/
def mostTurns : Nat := 1000000

/-- Runs what is left of a script line by line; `bound` bounds the number of lines. -/
def runLines (self : Self) (tested : Bool) : Nat → Reader → ShellM Unit
  | 0, _ => return
  | bound + 1, r => do
    match r.next with
    | .error e =>
      change fun s => { s with line := e.line }
      fail e.message
    | .ok none => return
    | .ok (some (c, r)) =>
      self.run tested c
      runLines self tested bound r

/-- Runs a script; answers how its last command ended. -/
def runText (self : Self) (tested : Bool) (text : String) : ShellM Nat := do
  setStatus 0
  runLines self tested mostTurns (Reader.ofText text)
  return (← shell).status

/-! ## Processes -/

def endNow : ShellM ExitStatus :=
  return .exited (UInt8.ofNat (← shell).status)

/-- Runs something to the end of the process; a signal may be meant for another one. -/
def toEnd (body : ShellM Unit) : ShellM ExitStatus := do
  try
    body
    endNow
  catch
    | .ended status => return status
    | .killed process signal => throw (.killed process signal)
    | _ => endNow

/-- Runs something in a copy of the shell; answers how that ends, and says so if a signal has ended
    it. -/
def apart (body : ShellM ExitStatus) : ShellM Nat := do
  let before ← shell
  let status ← body
  change fun _ => before
  match status with
  | .exited code => return code.toNat
  | .killed signal =>
    -- an interrupt and a broken pipe are not worth a word
    unless signal = 2 || signal = 13 do write 2 (Builtin.description signal ++ "\n")
    return 128 + signal

/-- Runs a command in a subshell, which takes itself for the process of this shell. -/
def inSubshell (self : Self) (tested : Bool) (c : Command) : ShellM Nat :=
  apart (toEnd (self.run tested c))

/-- What a command writes. -/
def output (self : Self) (c : Command) : ShellM String := do
  let stream ← addStream (.held [])
  let before ← shell
  connect 1 (some stream)
  let status ← inSubshell self false c
  change fun _ => { before with outputStatus := status }
  match (← get).world.streams[stream]? with
  | some (.held text) => return String.ofList text
  | _ => return ""

/-! ## Redirections -/

def redirect (self : Self) : Redirection → ShellM Unit
  | .document descriptor text => do
    let text ← Expansion.text self false text
    connect descriptor (some (← addStream (.held text.toList)))
  | .file descriptor direction name => do
    let target ← Expansion.text self false name
    match direction with
    | .same =>
      if target = "-" then connect descriptor none
      else
        match Text.readNat? 10 target.toList with
        | none => fail "Syntax error: Bad fd number"
        | some other =>
          let stream ← streamOf? other
          if stream.isNone then fail (target ++ ": Bad file descriptor")
          connect descriptor stream
    | _ => connectFile descriptor direction target

/-- Runs something while descriptors lead elsewhere, or from there on if that is `lasting`.  If a
    file cannot be used, nothing is run, and for `strict` the shell ends. -/
def redirected (self : Self) (strict lasting : Bool) (rs : List Redirection) (body : ShellM Unit) :
    ShellM Unit := do
  let before := (← shell).descriptors
  let back := change fun s => { s with descriptors := before }
  let opened ← try
      rs.forM (redirect self)
      pure true
    catch
      | .failed =>
        back
        if strict then throw .failed
        pure false
      | stop => throw stop
  if opened then afterwards body (unless lasting do back)

/-! ## Names -/

/-- The commands that end the shell if they go wrong. -/
def specialNames : List String :=
  [".", ":", "break", "continue", "eval", "exec", "exit", "export", "return", "set", "shift",
    "unset"]

/-- The other commands of the shell. -/
def regularNames : List String :=
  ["[", "cd", "echo", "false", "kill", "printf", "pwd", "test", "true"]

/-- The path of the program of a name; a name with a slash is a path. -/
def programPath (name : String) : ShellM (Except FileError String) := do
  if name.toList.contains '/' then return .ok name
  let fs ← files
  let paths := (Text.cut ':' (← value "PATH").toList).map fun dir =>
    if dir.isEmpty then name else String.ofList dir ++ "/" ++ name
  match paths.find? fun path => (fs.read ⟨octetsOf path⟩).isOk with
  | some path => return .ok path
  | none => return .error .notFound

/-- Says that a program cannot be run; answers how the command ends. -/
def refuse (name : String) (e : FileError) : ShellM Nat := do
  complain (name ++ ": " ++ shellReason "not found" e)
  return if e = .notFound || e = .notADirectory || e = .nameTooLong then 127 else 126

/-- Becomes the program that words name. -/
def exec (self : Self) (words : List String) : ShellM ExitStatus := do
  let name := words.head?.getD ""
  match ← programPath name with
  | .ok path => self.become path words
  | .error e => return .exited (UInt8.ofNat (← refuse name e))

/-- Runs a program. -/
def runProgram (self : Self) (words : List String) : ShellM Nat := do
  let name := words.head?.getD ""
  match ← programPath name with
  | .error e => refuse name e
  | .ok path =>
    apart do
      let process := (← get).world.lastProcess + 1
      changeWorld fun w => { w with lastProcess := process }
      change fun s => { s with process := process }
      self.become path words

/-! ## Commands of the shell that run others -/

/-- Leaves loops, or goes on with their next turn. -/
def skipLoops (command : String) (stop : Nat → Stop) (args : List String) : ShellM Nat := do
  let n ← Builtin.number command (args.head?.getD "1")
  let loops := (← shell).loops
  if loops = 0 then return 0
  setStatus 0
  throw (stop (min n loops))

/-- The status that the first argument of a command names, or that of the command before. -/
def statusOf (command : String) (args : List String) : ShellM Nat := do
  match args with
  | arg :: _ => Builtin.number command arg
  | [] => return (← shell).status

/-- Runs the commands of a file in this shell. -/
def source (self : Self) (args : List String) : ShellM Nat := do
  match ← programPath (args.head?.getD "") with
  | .error _ => fail (".: " ++ args.head?.getD "" ++ ": not found")
  | .ok path =>
    let text ← scriptAt ".: " path
    try
      runText self false text
    catch
      | .returned => return (← shell).status
      | stop => throw stop

def builtin (self : Self) (tested : Bool) (name : String) (args : List String) : ShellM Nat :=
  match name with
  | ":" | "true" => return 0
  | "false" => return 1
  | "." => source self args
  | "[" => Builtin.bracket args
  | "break" => skipLoops "break" .breakLoop args
  | "cd" => Builtin.cd args
  | "continue" => skipLoops "continue" .continueLoop args
  | "echo" => Builtin.echo args
  | "eval" => runText self tested (" ".intercalate args)
  | "exec" => do if args.isEmpty then return 0 else throw (.ended (← exec self args))
  | "exit" => do leave (← statusOf "exit" args)
  | "export" => Builtin.export_ args
  | "kill" => Builtin.kill args
  | "printf" => Builtin.printf args
  | "pwd" => Builtin.pwd
  | "return" => do
    setStatus (← statusOf "return" args)
    throw .returned
  | "set" => Builtin.set_ args
  | "shift" => Builtin.shift args
  | "test" => Builtin.test "test" args
  | "unset" => Builtin.unset args
  | _ => return 127

/-- The functions of which each may be called by the one before. -/
def mostCalls : Nat := 1000

def callFunction (self : Self) (tested : Bool) (body : Command) (args : List String) :
    ShellM Nat := do
  let before ← shell
  if mostCalls ≤ before.calls then
    fail ("Maximum function recursion depth (" ++ Text.showNat mostCalls ++ ") reached")
  change fun s => { s with args := args, loops := 0, calls := s.calls + 1 }
  afterwards
    (try self.run tested body catch
      | .returned => pure ()
      | stop => throw stop)
    (change fun s =>
      { s with args := before.args, loops := before.loops, calls := before.calls })
  return (← shell).status

/-- Runs what the first of some words stands for. -/
def call (self : Self) (tested : Bool) (words : List String) : ShellM Nat := do
  match words with
  | [] => return (← shell).outputStatus
  | name :: args =>
    match (← shell).functions.lookup name with
    | some body => callFunction self tested body args
    | none =>
      if specialNames.contains name then builtin self tested name args
      else if regularNames.contains name then
        try builtin self tested name args catch
          | .failed => return (← shell).status
          | stop => throw stop
      else runProgram self words

/-! ## Simple commands -/

/-- Makes assignments one by one, for programs too if they are `exported`; answers what the variables
    were before, last first. -/
def makeAssignments (self : Self) (exported : Bool) (words : List Word) :
    ShellM (List (String × Variable)) :=
  words.foldlM
    (fun before w => do
      match ← Expansion.assignment? self w with
      | none => return before
      | some (name, text) =>
        let old ← variableNamed name
        assign name text
        if exported then putVariable name (← variableNamed name).export_
        return (name, old) :: before)
    []

def simple (self : Self) (tested : Bool) (line : Nat) (assignments words : List Word)
    (rs : List Redirection) : ShellM Unit := do
  change fun s => { s with line := line, outputStatus := 0 }
  let fields := (← words.mapM (Expansion.fields self)).flatten
  let name := fields.head?.getD ""
  let isSpecial := specialNames.contains name
  redirected self isSpecial (fields = ["exec"]) rs do
    let old ← makeAssignments self (!fields.isEmpty) assignments
    afterwards
      (do setStatus (← call self tested fields))
      (unless fields.isEmpty || isSpecial do old.forM fun (name, v) => putVariable name v)

/-! ## Other commands -/

/-- Runs the stages of a pipeline, the first one with a stream as its input; answers how the last
    one ends. -/
def runStages (self : Self) (tested : Bool) : List Command → ShellM Nat
  | [] => return 0
  | [c] => inSubshell self tested c
  | c :: rest => do
    let before ← shell
    let stream ← addStream (.held [])
    connect 1 (some stream)
    let _ ← inSubshell self tested c
    change fun _ => before
    connect 0 (some stream)
    let status ← runStages self tested rest
    change fun _ => before
    return status

/-- Runs one turn of a loop; says whether the loop goes on. -/
def turn (body : ShellM Bool) : ShellM Bool := do
  try body catch
    | .breakLoop n => if n ≤ 1 then return false else throw (.breakLoop (n - 1))
    | .continueLoop n => if n ≤ 1 then return true else throw (.continueLoop (n - 1))
    | stop => throw stop

/-- Runs a loop, the turn before having ended with a status; `bound` bounds the number of turns. -/
def runLoop (self : Self) (tested inverted : Bool) (test body : Command) : Nat → ShellM Unit
  | 0 => return
  | bound + 1 => do
    let status := (← shell).status
    let goesOn ← turn do
      self.run true test
      if ((← shell).status = 0) = inverted then
        setStatus status
        return false
      self.run tested body
      return true
    if goesOn then runLoop self tested inverted test body bound

/-- Runs a body for each of some values. -/
def runEach (self : Self) (tested : Bool) (name : String) (body : Command) :
    List String → ShellM Unit
  | [] => return
  | text :: rest => do
    assign name text
    let goesOn ← turn do
      self.run tested body
      return true
    if goesOn then runEach self tested name body rest

/-- Runs a loop, which ends well if no turn has ended otherwise. -/
def inLoop (body : ShellM Unit) : ShellM Unit := do
  let loops := (← shell).loops
  change fun s => { s with loops := loops + 1, status := 0 }
  afterwards body (change fun s => { s with loops := loops })

def armFor? (self : Self) (text : String) :
    List (List Word × Command) → ShellM (Option Command)
  | [] => return none
  | (patterns, c) :: arms => do
    let found ← patterns.anyM fun w => do
      return (← Expansion.patternOf self w).isMatch text.toList
    if found then return some c else armFor? self text arms

/-- Ends the shell if it is told so because a command has gone wrong at which nobody looks. -/
def demandSuccess (tested : Bool) : ShellM Unit := do
  let s ← shell
  if !tested && s.status ≠ 0 && s.options.contains 'e' then leave s.status

/-- Runs a command.  `tested` says that somebody looks how it ends. -/
def run (self : Self) (tested : Bool) (c : Command) : ShellM Unit := do
  match c with
  | .nothing => return
  | .simple line assignments words rs =>
    simple self tested line assignments words rs
    demandSuccess tested
  | .pipe stages =>
    setStatus (← runStages self tested stages)
    demandSuccess tested
  | .negate c =>
    self.run true c
    setStatus (if (← shell).status = 0 then 1 else 0)
  | .both first second =>
    self.run true first
    if (← shell).status = 0 then self.run tested second
  | .either first second =>
    self.run true first
    if (← shell).status ≠ 0 then self.run tested second
  | .row first second =>
    self.run tested first
    self.run tested second
  | .redirected line c rs =>
    change fun s => { s with line := line }
    redirected self false false rs (self.run tested c)
  | .subshell c =>
    setStatus (← inSubshell self tested c)
    demandSuccess tested
  | .branch test yes no =>
    self.run true test
    if (← shell).status = 0 then self.run tested yes
    else
      setStatus 0
      self.run tested no
  | .loop inverted test body => inLoop (runLoop self tested inverted test body mostTurns)
  | .each name words body =>
    let values ← words.mapM (Expansion.fields self)
    inLoop (runEach self tested name body values.flatten)
  | .choose subject arms =>
    let text ← Expansion.text self false subject
    match ← armFor? self text arms with
    | none => setStatus 0
    | some body =>
      setStatus 0
      self.run tested body
  | .define name body =>
    change fun s =>
      { s with functions := (name, body) :: s.functions.filter fun f => f.1 ≠ name }
    setStatus 0

end Evaluation

end BuildSupervisor.Shell
