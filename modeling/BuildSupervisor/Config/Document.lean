import BuildSupervisor.Config.Variables
import BuildSupervisor.Toml.Document
import BuildSupervisor.Wire.Session
/-!
# Configuration files
-/

namespace BuildSupervisor.Config

/-- The configuration of a TOML document; what it does not say is as in `missing`. -/
def ofToml (missing : Config) (text : String) : Except ConfigError Config :=
  match Toml.ofText? text with
  | none => .error .malformed
  | some root =>
    match (Codec.config missing).decode Rules.table root.toJson with
    | some c => .ok c
    | none => .error .malformed

def ofFile (fs : FileSystem) (missing : Config) (path : Path) : Except ConfigError Config :=
  match fs.readText path with
  | .error reason => .error (.unreadable path reason)
  | .ok text => ofToml missing text

end BuildSupervisor.Config

namespace BuildSupervisor.ConfigError

/-- What is said of a configuration that cannot be loaded. -/
def message : ConfigError → String
  | .unreadable path reason =>
    "Failed to read config file " ++ path.text ++ ": " ++ reason.message
  | .malformed => "Invalid config"
  | .invalidValue name value => "Invalid value for " ++ name ++ ": " ++ value

end BuildSupervisor.ConfigError
