import BuildSupervisor.Config.Basic
/-!
# Configuration by environment variables

Eight variables override fields of a configuration, one after the other in a fixed order.  The
first one whose value is none for its field ends the reading; the fields before it stay changed.
-/

namespace BuildSupervisor

/-- Why a configuration cannot be loaded. -/
inductive ConfigError where
  | unreadable (path : Path) (reason : FileError)
  | malformed
  | invalidValue (name value : String)
  deriving DecidableEq, Repr

namespace Config

def homeOf (env : Environment) : Option Path :=
  match (env.value "HOME").or (env.value "USERPROFILE") with
  | some [] | none => none
  | some octets => some ⟨octets⟩

/-- The configuration where nothing is configured, in an environment. -/
def defaultIn (env : Environment) : Config :=
  default (homeOf env)

/-- A number of 64 bits, an optional plus sign before it. -/
def readWord? (text : String) : Option UInt64 :=
  (Text.readUnsigned? UInt64.size text.toList).map UInt64.ofNat

/-- Whether a value switches something on. -/
def isOn (value : String) : Bool :=
  value.toList.map asciiLower = "true".toList || value = "1"

/-- The directories in a list with colons between them, those without a name left out. -/
def directories (value : Bytes) : List Path :=
  (SearchPath.entries value).filter fun dir => !dir.isEmpty

/-- A variable that overrides one field.  Where its octets are no text, it counts as unset. -/
structure Setting where
  name : String
  apply : String → Config → Option Config

/-- A field whose value has to be read, blanks around it left aside. -/
def parsed (name : String) (read : String → Option α) (put : α → Config → Config) : Setting where
  name := name
  apply value c := (read (String.ofList (Text.trim value.toList))).map fun a => put a c

/-- A field that takes any value. -/
def verbatim (name : String) (put : String → Config → Config) : Setting where
  name := name
  apply value c := some (put value c)

/-- The variables whose values are text, in the order in which they are read. -/
def settings : List Setting :=
  [parsed "BUILD_SESSION_COMPLETION_DELAY_MS" readWord?
      fun ms c => { c with completionDelayMs := ms },
    parsed "BUILD_SESSION_WATCHDOG_TIMEOUT_SECS" readWord?
      fun secs c => { c with watchdogTimeoutSecs := secs },
    parsed "BUILD_SESSION_REENTRY" (fun v => (ReentryPolicy.ofWord v).toOption)
      fun policy c => { c with reentry := policy },
    parsed "BUILD_SESSION_DIALECT" (fun v => (Dialect.ofWord v).toOption)
      fun dialect c => { c with dialect := dialect },
    verbatim "BUILD_SESSION_PATH_VARIABLE" fun v c => { c with pathVariable := v },
    verbatim "BUILD_SESSION_NORMALIZE_NEWLINES" fun v c => { c with normalizeNewlines := isOn v },
    verbatim "BUILD_SESSION_TOOLCHAIN_NAME" fun v c =>
      { c with toolchain := { c.toolchain with name := v } }]

/-- The variable that lists the directories of the toolchain; its value need not be text. -/
def toolchainDirsName : String :=
  "BUILD_SESSION_TOOLCHAIN_DIRS"

/-- Reads variables one after the other, and says which one ended the reading. -/
def applySettings (env : Environment) : List Setting → Config → Config × Option ConfigError
  | [], c => (c, none)
  | setting :: rest, c =>
    match env.text? setting.name with
    | none => applySettings env rest c
    | some value =>
      match setting.apply value c with
      | some c => applySettings env rest c
      | none => (c, some (.invalidValue setting.name value))

def applyVariables (env : Environment) (c : Config) : Config × Option ConfigError :=
  match applySettings env settings c with
  | (c, some e) => (c, some e)
  | (c, none) =>
    match env.value toolchainDirsName with
    | none => (c, none)
    | some value =>
      ({ c with toolchain := { c.toolchain with dirs := directories value } }, none)

/-- The configuration that an environment gives where nothing else is configured. -/
def ofEnvironment (env : Environment) : Except ConfigError Config :=
  match applyVariables env (defaultIn env) with
  | (c, none) => .ok c
  | (_, some e) => .error e

end Config

end BuildSupervisor
