import BuildSupervisor.CommandLine.Run
import BuildSupervisor.Shell.Host
import Std.Time.DateTime.Timestamp
/-!
# The program

Gathers the variables and files that a run looks at, runs it and prints what it leaves behind.
Build commands are run by the shell of the library, which knows no other programs than its own.
-/

namespace BuildSupervisor.CommandLine

/-- The variables that a run may look at before its configuration is known. -/
def variableNames : List String :=
  ["PATH", "HOME", "USERPROFILE", Config.toolchainDirsName]
    ++ Config.settings.map Config.Setting.name

/-- The variables of these names that are set; a name that ends early is none. -/
def readVariables (names : List String) : IO (List (String × Bytes)) :=
  (names.filter fun name => !name.toList.contains '\x00').filterMapM fun name =>
    return (← IO.getEnv name).map fun value => (name, Utf8.encode value)

/-- Looks what stands at a path. -/
def probe (fs : FileSystem) (p : Path) : IO FileSystem := do
  try
    let content ← IO.FS.readBinFile p.text
    return fs.record p (.file content.toList)
  catch
    | .inappropriateType .. => return fs.record p .directory
    | _ => return fs

/-- The directory in which the program runs. -/
def workingFiles : IO FileSystem := do
  let here := Path.ofText (← IO.currentDir).toString
  return FileSystem.bare ((FileSystem.bare []).locationOf here)

/-- Gathers what a run with these arguments looks at. -/
def gather (a : Arguments) : IO (FileSystem × Environment) := do
  let early ← readVariables variableNames
  let env := Environment.ofList early
  let named := a.options.config.toList ++ a.options.cwd.toList
  let fs ← named.foldlM probe (← workingFiles)
  match a.config fs env with
  | .error _ => return (fs, env)
  | .ok config =>
    let path ← readVariables [config.pathVariable]
    return (← config.toolchain.dirs.foldlM probe fs, Environment.ofList (early ++ path))

/-- A name that no other notification has: random digits, and the number of the notification. -/
def nameOf (digits : List Char) (sequence : Nat) : String :=
  let last := Text.showNat (sequence % 1000000000000)
  let group (start size : Nat) := String.ofList ((digits.drop start).take size)
  group 0 8 ++ "-" ++ group 8 4 ++ "-4" ++ group 12 3 ++ "-8" ++ group 15 3 ++ "-"
    ++ String.ofList (List.replicate (12 - last.length) '0') ++ last

/-- What stamps the notifications of this run. -/
def newStamp : IO Stamp := do
  let digits ← (List.range 18).mapM fun _ => return Json.hexDigit (← IO.rand 0 15)
  let now ← Std.Time.Timestamp.now
  let time := Timestamp.ofUnixNanos now.toNanosecondsSinceUnixEpoch.toInt.toNat
  return fun n => ⟨nameOf digits n.sequence, time, n⟩

def runArguments (args : List String) : IO ProgramEnd := do
  match Arguments.parse args with
  | .error e => return ofArgumentError e
  | .ok a =>
    let (fs, env) ← gather a
    return run (Shell.hostOf fs) env (← newStamp) args

end BuildSupervisor.CommandLine

/-- Prints what a run leaves behind, and ends as it does. -/
def main (args : List String) : IO UInt32 := do
  let e ← BuildSupervisor.CommandLine.runArguments args
  IO.print e.stdout
  IO.eprint e.stderr
  return e.exitCode.toUInt32
