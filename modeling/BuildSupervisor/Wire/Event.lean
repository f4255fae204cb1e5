import BuildSupervisor.Event
import BuildSupervisor.Json.Kept
import BuildSupervisor.Time.Timestamp
import BuildSupervisor.Wire.Codec
/-!
# Diagnostics, results and events as JSON
-/

namespace BuildSupervisor

/-- A notification as it is sent: with a name of its own and the time at which it was sent. -/
structure Envelope where
  id : String
  timestamp : Timestamp
  notification : Notification
  deriving DecidableEq, Repr

namespace Codec

def severity : Codec Severity :=
  choice Severity.name [.error, .warning, .note]

/-- A diagnostic. -/
def diagnostic : Codec Diagnostic where
  encode d := .object
    [("sourceFile", .text d.sourceFile), ("line", word32.encode d.line),
      ("column", word32.encode d.column), ("severity", severity.encode d.severity),
      ("message", .text d.message)]
  decode rules v :=
    match fields rules ["sourceFile", "line", "column", "severity", "message"] v with
    | some [file, line, column, grave, message] => do
      return ⟨← text.required rules file, ← word32.required rules line,
        ← word32.required rules column, ← severity.required rules grave,
        ← text.required rules message⟩
    | _ => none

def count : Codec Nat :=
  natural UInt64.size

/-- A summary of diagnostics. -/
def summary : Codec Diagnostic.Summary where
  encode s := .object
    [("errors", count.encode s.errors), ("warnings", count.encode s.warnings),
      ("notes", count.encode s.notes)]
  decode rules v :=
    match fields rules ["errors", "warnings", "notes"] v with
    | some [errors, warnings, notes] => do
      return ⟨← count.required rules errors, ← count.required rules warnings,
        ← count.required rules notes⟩
    | _ => none

def outputKind : Codec OutputKind :=
  choice OutputKind.name [.normal, .error]

/-- A chunk of console output. -/
def chunk : Codec Chunk where
  encode c := .object [("channel", outputKind.encode c.stream), ("text", .text c.text)]
  decode rules v :=
    match fields rules ["channel", "text"] v with
    | some [stream, s] => do
      return ⟨← outputKind.required rules stream, ← text.required rules s⟩
    | _ => none

def output : Codec Output where
  encode o := .object [("kind", outputKind.encode o.kind), ("text", .text o.text)]
  decode rules v :=
    match fields rules ["kind", "text"] v with
    | some [kind, s] => do
      return ⟨← outputKind.required rules kind, ← text.required rules s⟩
    | _ => none

def buildResult : Codec BuildResult where
  encode r := .object
    [("targetFile", .text r.targetFile), ("outputs", output.list.encode r.outputs),
      ("errors", diagnostic.list.encode r.diagnostics)]
  decode rules v :=
    match fields rules ["targetFile", "outputs", "errors"] v with
    | some [target, outputs, errors] => do
      return ⟨← text.required rules target, ← output.list.required rules outputs,
        ← diagnostic.list.required rules errors⟩
    | _ => none

def eventName : Codec String :=
  choice id ["build_started", "build_completed"]

/-- Decodes the contents of an event of a name. -/
def eventNamed (rules : Rules) (name : String) (data : Option Json) : Option Event :=
  if name = "build_started" then
    match data with
    | none | some .null => some .started
    | some _ => none
  else if name = "build_completed" then
    (buildResult.required rules data).map .completed
  else none

/-- Whether the contents stand before the name in an object. -/
def dataFirst (members : List (String × Json)) : Bool :=
  match members.find? fun m => m.1 = "type" ∨ m.1 = "data" with
  | some (key, _) => key = "data"
  | none => false

/-- The rules for the contents of an event: those that stand before its name are kept until the
    name is known. -/
def eventRules (rules : Rules) (members : List (String × Json)) (data : Option Json) :
    Option Rules :=
  if dataFirst members then
    if data.all (Json.canBeKept (rules.room - 1)) then some Rules.kept else none
  else some rules

/-- An event: its name and its contents. -/
def event : Codec Event where
  encode
    | .started => .object [("type", .text Event.started.name)]
    | .completed r =>
      .object [("type", .text (Event.completed r).name), ("data", buildResult.encode r)]
  decode rules v :=
    match v with
    | .object members =>
      match membersNamed members ["type", "data"] with
      | some [some tag, data] => do
        eventNamed (← eventRules rules members data) (← eventName.decode rules tag) data
      | _ => none
    | .array [.text name, data] => eventNamed rules name (some data)
    | _ => none

/-- A point in time. -/
def timestamp : Codec Timestamp where
  encode t := .text t.render
  decode
    | _, .text s => Timestamp.ofText? s
    | _, _ => none

/-- The number of a build or of a notification. -/
def number : Codec Nat :=
  natural UInt64.size

/-- A notification as it is sent. -/
def envelope : Codec Envelope where
  encode e := .object
    [("id", .text e.id), ("sequence", number.encode e.notification.sequence),
      ("build_id", number.encode e.notification.buildId),
      ("timestamp", timestamp.encode e.timestamp), ("event", event.encode e.notification.event)]
  decode rules v :=
    match fields rules ["id", "sequence", "build_id", "timestamp", "event"] v with
    | some [id, sequence, build, time, told] => do
      let id ← text.required rules id
      let sequence ← number.required rules sequence
      let build ← number.required rules build
      let time ← timestamp.required rules time
      let told ← event.required rules.inside told
      return ⟨id, time, ⟨sequence, build, told⟩⟩
    | _ => none

end Codec

end BuildSupervisor
