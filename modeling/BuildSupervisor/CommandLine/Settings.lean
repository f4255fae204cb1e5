import BuildSupervisor.CommandLine.Arguments
import BuildSupervisor.Config.Document
import BuildSupervisor.Tool.Command
/-!
# What the arguments settle

The configuration of a run comes from a file, then from variables, then from options, each over the
ones before.  The build command comes from one option or from the words behind `--`.
-/

namespace BuildSupervisor

/-- Why there is no configuration. -/
inductive SettingsError where
  | file (path : Path) (cause : ConfigError)
  | environment (cause : ConfigError)
  deriving DecidableEq, Repr

namespace SettingsError

/-- What is said of the missing configuration. -/
def message : SettingsError → String
  | .file path _ => "loading " ++ path.text
  | .environment _ => "reading BUILD_SESSION_* variables"

/-- What is wrong with the file or the variables. -/
def cause : SettingsError → ConfigError
  | .file _ cause | .environment cause => cause

end SettingsError

/-- Why there is no build command. -/
inductive CommandError where
  | missing
  | unsplit (line : String)
  deriving DecidableEq, Repr

def CommandError.message : CommandError → String
  | .missing => "no build command given (use --command or `-- COMMAND ...`)"
  | .unsplit line => "cannot split command line: " ++ line

def Options.override (o : Options) (c : Config) : Config :=
  { c with
    completionDelayMs := o.delayMs.getD c.completionDelayMs
    watchdogTimeoutSecs := o.watchdogSecs.getD c.watchdogTimeoutSecs
    dialect := o.dialect.getD c.dialect }

namespace Arguments

/-- The configuration before variables and options. -/
def baseConfig (a : Arguments) (fs : FileSystem) (env : Environment) :
    Except SettingsError Config :=
  match a.options.config with
  | none => .ok (Config.defaultIn env)
  | some path =>
    match Config.ofFile fs (Config.defaultIn env) path with
    | .ok c => .ok c
    | .error e => .error (.file path e)

/-- The configuration of a run. -/
def config (a : Arguments) (fs : FileSystem) (env : Environment) : Except SettingsError Config :=
  match a.baseConfig fs env with
  | .error e => .error e
  | .ok c =>
    match Config.applyVariables env c with
    | (c, none) => .ok (a.options.override c)
    | (_, some e) => .error (.environment e)

/-- The build command before its directory is said. -/
def bareCommand (a : Arguments) : Except CommandError ToolCommand :=
  match a.options.command with
  | some line =>
    match ToolCommand.ofLine? line with
    | some c => .ok c
    | none => .error (.unsplit line)
  | none =>
    match ToolCommand.ofWords? a.words with
    | some c => .ok c
    | none => .error .missing

def command (a : Arguments) : Except CommandError ToolCommand :=
  a.bareCommand.map fun c => a.options.cwd.elim c c.inDirectory

end Arguments

end BuildSupervisor
