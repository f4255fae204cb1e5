import BuildSupervisor.Session.Basic
import BuildSupervisor.Wire.Event
/-!
# Requests, answers and configurations as JSON
-/

namespace BuildSupervisor.Codec

/-- A path whose octets are text. -/
def path : Codec Path where
  encode p := .text p.text
  decode
    | _, .text s => some (Path.ofText s)
    | _, _ => none

def buildRequest : Codec BuildRequest where
  encode r := .object
    [("target_file", path.encode r.targetFile), ("from_code", .bool r.fromCode),
      ("show_output", .bool r.showOutput)]
  decode rules v :=
    match fields rules ["target_file", "from_code", "show_output"] v with
    | some [target, fromCode, showOutput] => do
      return ⟨← path.required rules target, ← bool.required rules fromCode,
        ← bool.required rules showOutput⟩
    | _ => none

/-- The build that is in the way. -/
def busy : Codec Nat where
  encode active := .object [("active", number.encode active)]
  decode rules v :=
    match fields rules ["active"] v with
    | some [active] => number.required rules active
    | _ => none

/-- The answer to a request. -/
def startOutcome : Codec StartOutcome where
  encode
    | .accepted id => .object [("accepted", number.encode id)]
    | .busy active => .object [("busy", busy.encode active)]
  decode rules v :=
    match v with
    | .object [(name, v)] =>
      if name = "accepted" then (number.decode rules v).map .accepted
      else if name = "busy" then (busy.decode rules v).map .busy
      else none
    | _ => none

def sessionState : Codec SessionState :=
  choice SessionState.name [.idle, .building, .completionPending]

/-- What a session says of itself. -/
def sessionStatus : Codec SessionStatus where
  encode s := .object
    [("state", sessionState.encode s.state), ("build_id", number.nullable.encode s.buildId),
      ("target_file", path.nullable.encode s.targetFile)]
  decode rules v :=
    match fields rules ["state", "build_id", "target_file"] v with
    | some [state, build, target] => do
      return ⟨← sessionState.required rules state, ← number.nullable.orNull rules build,
        ← path.nullable.orNull rules target⟩
    | _ => none

def toolchain : Codec Toolchain where
  encode t := .object [("name", .text t.name), ("dirs", path.list.encode t.dirs)]
  decode rules v :=
    match optionalFields rules ["name", "dirs"] v with
    | some [name, dirs] => do
      return ⟨← text.orElse "" rules name, ← path.list.orElse [] rules dirs⟩
    | _ => none

/-- What becomes of a build when another one is asked for. -/
def reentryPolicy : Codec ReentryPolicy :=
  choice ReentryPolicy.name [.replace, .reject]

/-- A dialect. -/
def dialect : Codec Dialect :=
  choice Dialect.name [.gcc, .rustc]

/-- The fields of a configuration, in order. -/
def configNames : List String :=
  ["completion_delay_ms", "watchdog_timeout_secs", "reentry", "dialect", "path_variable",
    "normalize_newlines", "toolchain", "home_dir"]

/-- A configuration.  Fields that are missing are as in the configuration `missing`. -/
def config (missing : Config) : Codec Config where
  encode c := .object
    [("completion_delay_ms", word64.encode c.completionDelayMs),
      ("watchdog_timeout_secs", word64.encode c.watchdogTimeoutSecs),
      ("reentry", reentryPolicy.encode c.reentry), ("dialect", dialect.encode c.dialect),
      ("path_variable", .text c.pathVariable), ("normalize_newlines", .bool c.normalizeNewlines),
      ("toolchain", toolchain.encode c.toolchain), ("home_dir", path.nullable.encode c.homeDir)]
  decode rules v :=
    match optionalFields rules configNames v with
    | some [delay, timeout, policy, words, variable_, newlines, tools, home] => do
      return ⟨← word64.orElse missing.completionDelayMs rules delay,
        ← word64.orElse missing.watchdogTimeoutSecs rules timeout,
        ← reentryPolicy.orElse missing.reentry rules policy,
        ← dialect.orElse missing.dialect rules words,
        ← text.orElse missing.pathVariable rules variable_,
        ← bool.orElse missing.normalizeNewlines rules newlines,
        ← toolchain.orElse missing.toolchain rules tools,
        ← path.nullable.orElse missing.homeDir rules home⟩
    | _ => none

end BuildSupervisor.Codec
