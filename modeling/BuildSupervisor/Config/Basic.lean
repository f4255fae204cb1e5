import BuildSupervisor.Diagnostic.Dialect
import BuildSupervisor.Environment.SearchPath
import BuildSupervisor.Time.Duration
/-!
# Configuration of a session

What a session needs to know before its first build.  Two numbers are kept as they are written,
in milliseconds and seconds; `Config.completionDelay` and `Config.watchdogTimeout?` are the
durations they stand for.
-/

namespace BuildSupervisor

/-- What becomes of a build when another one is asked for before it has ended. -/
inductive ReentryPolicy where
  | replace
  | reject
  deriving DecidableEq, Repr

namespace ReentryPolicy

/-- The word a policy is written with. -/
def name : ReentryPolicy → String
  | .replace => "replace"
  | .reject => "reject"

/-- The policy a word names, in any case and with any blanks around it; otherwise the word as it
    was compared. -/
def ofWord (word : String) : Except String ReentryPolicy :=
  match String.ofList (Text.keyword word.toList) with
  | "replace" => .ok .replace
  | "reject" => .ok .reject
  | other => .error other

/-- What is said of a word that names no policy. -/
def unknown (word : String) : String :=
  "unknown reentry policy: " ++ word

end ReentryPolicy

/-- The configuration of a session. -/
structure Config where
  /-- How long output is gathered after the tool has ended. -/
  completionDelayMs : UInt64
  /-- How long a build may take to report its end; no limit where it is zero. -/
  watchdogTimeoutSecs : UInt64
  reentry : ReentryPolicy
  dialect : Dialect
  /-- The variable that holds the search path. -/
  pathVariable : String
  /-- Ends every chunk of console output with a line feed. -/
  normalizeNewlines : Bool
  toolchain : Toolchain
  /-- The directory that is shown as `~`. -/
  homeDir : Option Path
  deriving DecidableEq, Repr

namespace Config

/-- The configuration where nothing is configured, for a given home directory. -/
def default (homeDir : Option Path) : Config where
  completionDelayMs := 200
  watchdogTimeoutSecs := 900
  reentry := .replace
  dialect := .gcc
  pathVariable := "PATH"
  normalizeNewlines := false
  toolchain := ⟨"", []⟩
  homeDir := homeDir

/-- How long output is gathered after the tool has ended. -/
def completionDelay (c : Config) : Duration :=
  Duration.ofMillis c.completionDelayMs

/-- How long a build may take to report its end. -/
def watchdogTimeout? (c : Config) : Option Duration :=
  if 0 < c.watchdogTimeoutSecs then some (Duration.ofSecs c.watchdogTimeoutSecs) else none

end Config

end BuildSupervisor
