import BuildSupervisor.CommandLine.Settings
import BuildSupervisor.Invoker
import BuildSupervisor.Tool.Host
import BuildSupervisor.Wire.Session
/-!
# A run of the program

The program starts a service, asks it for one build and prints what came of it: every notification
as a line of JSON, the result as JSON, or a summary.  It ends with 0 if the build succeeded, with 1
if it failed or could not be run, and with 2 if the arguments are not taken.
-/

namespace BuildSupervisor

/-- What a run of the program leaves behind. -/
structure ProgramEnd where
  exitCode : UInt8
  stdout : String
  /-- What is written to the error stream. -/
  stderr : String
  deriving DecidableEq, Repr

namespace CommandLine

/-- The name of the program and its version. -/
def versionLine : String := "build-runner 0.1.0\n"

/-- How the program is used. -/
def usage : String :=
  "Usage: build-runner [OPTIONS] --target <TARGET> [-- <COMMAND>...]\n"

/-- A run whose arguments are not taken, or which only tells about the program. -/
def ofArgumentError : ArgumentError → ProgramEnd
  | .helpRequested => ⟨0, usage, ""⟩
  | .versionRequested => ⟨0, versionLine, ""⟩
  | _ => ⟨2, "", usage⟩

/-- A run that ends with an error. -/
def failed (message : String) : ProgramEnd :=
  ⟨1, "", "Error: " ++ message ++ "\n"⟩

/-- What stamps notifications when they are printed. -/
abbrev Stamp := Notification → Envelope

def eventLines (o : Options) (stamp : Stamp) (told : List Notification) : String :=
  if o.events then String.join (told.map fun n => Codec.envelope.write (stamp n) ++ "\n") else ""

/-- What is printed of the report. -/
def reportLines (o : Options) (report : Report) : String :=
  if o.json then (Codec.buildResult.encode report.result).renderIndented ++ "\n"
  else if o.events then ""
  else report.render ++ "\n"

/-- A run whose build has come to an outcome. -/
def ofOutcome (o : Options) (told : String) : Except InvokeError Outcome → ProgramEnd
  | .error e => failed (e.reasons.head?.getD "")
  | .ok (.busy active) => ⟨2, told, "session busy with build " ++ Text.showNat active ++ "\n"⟩
  | .ok (.finished report) =>
    ⟨if report.succeeded then 0 else 1, told ++ reportLines o report, ""⟩

/-- A run with a configuration.  The service is lost where it cannot patch the environment for the
    build that it takes up, and then the build is never answered for. -/
def build (host : Host) (env : Environment) (stamp : Stamp) (o : Options) (config : Config)
    (request : BuildRequest) (command : ToolCommand) : ProgramEnd :=
  let session := Session.new config config.dialect env (Channel.new consoleCapacity)
  let located := config.toolchain.locate host.files
  match session.events.listen? with
  | none => failed ""
  | some (listener, events) =>
    if !env.bearsPatch config.pathVariable located then
      ofOutcome o "" (.error (.session .stopped))
    else
      let v := Service.new { session with events := events } located
      match v.runBuild 0 request command (host.launch command) with
      | (none, _) => failed ""
      | (some outcome, v) =>
        ofOutcome o (eventLines o stamp (v.session.events.drain listener).1) outcome

def run (host : Host) (env : Environment) (stamp : Stamp) (args : List String) : ProgramEnd :=
  match Arguments.parse args with
  | .error e => ofArgumentError e
  | .ok a =>
    match a.config host.files env with
    | .error e => failed e.message
    | .ok config =>
      match a.command with
      | .error e => failed e.message
      | .ok command => build host env stamp a.options config a.request command

end CommandLine

end BuildSupervisor
