import BuildSupervisor.Config.Basic
import BuildSupervisor.Event
import BuildSupervisor.Time.Schedule
/-!
# Build sessions

A session looks after one build at a time.  Starting a build patches the search path, begins to
read the console and announces the build.  When the tool reports its end, the result is made after
a delay, so that output still on its way is part of it; a build that never reports is ended by a
watchdog.  Every way back to rest undoes the patch, stops reading the console and forgets what was
gathered.

What is done later is kept in the schedule as data, bound to the number of a build: it does
nothing once that build is gone.
-/

namespace BuildSupervisor

/-- What to build. -/
structure BuildRequest where
  targetFile : Path
  /-- The target holds code that is no file of the user's; its diagnostics are not read. -/
  fromCode : Bool
  /-- The result shows the whole output even of a build that succeeds. -/
  showOutput : Bool
  deriving DecidableEq, Repr

/-- The answer to a request: the number of the build, or the number of the build that is in the
    way. -/
inductive StartOutcome where
  | accepted (id : BuildId)
  | busy (active : BuildId)
  deriving DecidableEq, Repr

/-- What a session does just now. -/
inductive SessionState where
  | idle
  | building
  | completionPending
  deriving DecidableEq, Repr

namespace SessionState

/-- The word a state is written with. -/
def name : SessionState → String
  | .idle => "idle"
  | .building => "building"
  | .completionPending => "completion_pending"

end SessionState

/-- What a session says of itself. -/
structure SessionStatus where
  state : SessionState
  buildId : Option BuildId
  targetFile : Option Path
  deriving DecidableEq, Repr

/-- How far a build has come: its tool runs, or has ended and the result is due. -/
inductive BuildPhase where
  | building
  | completionPending
  deriving DecidableEq, Repr

/-- The build that a session looks after. -/
structure ActiveBuild where
  id : BuildId
  request : BuildRequest
  phase : BuildPhase
  /-- What it takes to undo the patch of the search path. -/
  saved : Option SavedVariable
  warning : Option PatchWarning
  deriving DecidableEq, Repr

/-- What a session has put off. -/
inductive Deferred where
  | finalize (id : BuildId) (succeeded : Bool) (reported : String)
  | watchdog (id : BuildId)
  deriving DecidableEq, Repr

/-- Why a session cannot start a build or be asked anything. -/
inductive SessionError where
  | consoleClosed
  | stopped
  deriving DecidableEq, Repr

/-- What is said of a session that cannot start a build or be asked anything. -/
def SessionError.message : SessionError → String
  | .consoleClosed => "Cannot capture console output: Console stream is closed"
  | .stopped => "Session driver has stopped"

/-- A session with all that it reads and writes. -/
structure Session where
  config : Config
  /-- The dialect in which diagnostics are read. -/
  dialect : Dialect
  active : Option ActiveBuild
  capture : Capture
  /-- The number given to the last build that was asked for. -/
  lastId : BuildId
  console : Console
  events : EventBus
  environment : Environment
  schedule : Schedule Deferred

namespace Session

/-- A session at rest that has not looked after any build. -/
def new (config : Config) (dialect : Dialect) (environment : Environment) (console : Console) :
    Session where
  config := config
  dialect := dialect
  active := none
  capture := Capture.new config.normalizeNewlines
  lastId := 0
  console := console
  events := EventBus.new
  environment := environment
  schedule := Schedule.new

/-- What the session does just now. -/
def state (s : Session) : SessionState :=
  match s.active with
  | none => .idle
  | some build =>
    match build.phase with
    | .building => .building
    | .completionPending => .completionPending

/-- The number of the build that the session looks after. -/
def currentBuild? (s : Session) : Option BuildId :=
  s.active.map ActiveBuild.id

/-- What the session says of itself. -/
def status (s : Session) : SessionStatus :=
  ⟨s.state, s.currentBuild?, s.active.map fun build => build.request.targetFile⟩

/-- The warning that the start of the build gave rise to. -/
def toolchainWarning? (s : Session) : Option PatchWarning :=
  s.active.bind ActiveBuild.warning

/-- Undoes a patch, if there was one. -/
def undo (environment : Environment) (saved : Option SavedVariable) : Environment :=
  match saved with
  | some variable_ => environment.restore variable_
  | none => environment

/-- Comes to rest: the build is gone without a result, its patch is undone, the console is read no
    longer and what was gathered is forgotten. -/
def reset (s : Session) : Session :=
  let (capture, console) := s.capture.reset s.console
  { s with
    active := none
    capture := capture
    console := console
    environment := undo s.environment (s.active.bind ActiveBuild.saved) }

/-- Lets the session go, which comes to rest first. -/
def drop (s : Session) : Session :=
  s.reset

/-- Puts something off. -/
def defer (s : Session) (delay : Duration) (task : Deferred) : Session :=
  { s with schedule := s.schedule.schedule delay (Job.single task) }

/-- Takes a build from a session at rest.  The number of the build is used up even if the console
    is closed and nothing is started. -/
def begin (s : Session) (located : Located) (request : BuildRequest) :
    Except SessionError StartOutcome × Session :=
  let id := s.lastId + 1
  let (patch, environment) := s.environment.patch s.config.pathVariable located
  match s.capture.subscribe? s.console with
  | none => (.error .consoleClosed,
      { s with lastId := id, environment := undo environment patch.saved? })
  | some (capture, console) =>
    let started : Session :=
      { s with
        active := some ⟨id, request, .building, patch.saved?, patch.warning?⟩
        capture := capture
        lastId := id
        console := console
        events := s.events.publish id .started
        environment := environment }
    match s.config.watchdogTimeout? with
    | some timeout => (.ok (.accepted id), started.defer timeout (.watchdog id))
    | none => (.ok (.accepted id), started)

/-- Asks for a build, where `located` says which directories its toolchain needs.  A build that is
    still there is in the way or is given up, as the session is configured. -/
def start (s : Session) (located : Located) (request : BuildRequest) :
    Except SessionError StartOutcome × Session :=
  match s.active, s.config.reentry with
  | some build, .reject => (.ok (.busy build.id), s)
  | _, _ => s.reset.begin located request

/-- Adds a chunk to what was gathered; says whether the console is read just now. -/
def onOutputChunk (s : Session) (c : Chunk) : Bool × Session :=
  (s.capture.isSubscribed, { s with capture := s.capture.append c })

/-- Gathers every chunk that waits on the console; says how many there were. -/
def drainConsole (s : Session) : Nat × Session :=
  let (count, capture, console) := s.capture.drain s.console
  (count, { s with capture := capture, console := console })

/-- The next chunk on the console, which is not gathered yet. -/
def nextChunk (s : Session) : NextChunk × Session :=
  let (next, capture, console) := s.capture.next s.console
  (next, { s with capture := capture, console := console })

/-- The tool has ended: the result is made after the completion delay.  Says whether a build waited
    for that. -/
def onBuildComplete (s : Session) (succeeded : Bool) (reported : String) : Bool × Session :=
  match s.active with
  | none => (false, s)
  | some build =>
    match build.phase with
    | .completionPending => (false, s)
    | .building =>
      (true,
        { s with active := some { build with phase := .completionPending } }.defer
          s.config.completionDelay (.finalize build.id succeeded reported))

/-- The diagnostics of a build whose output is given: what its request selects as normal text, and
    its error text. -/
def diagnosticsOf (dialect : Dialect) (request : BuildRequest) (selected stderr : String) :
    List Diagnostic :=
  if request.fromCode then []
  else dialect.parse (selected ++ "\n" ++ stderr) request.targetFile.baseDirectory

def shownWarning? (build : ActiveBuild) (succeeded : Bool) : Option String :=
  if succeeded then none
  else build.warning.map fun warning => Text.endLine warning.message

/-- The result of a build whose output has been gathered.  A build that succeeded shows what its
    tool reported, unless the whole output is asked for. -/
def resultOf (config : Config) (dialect : Dialect) (build : ActiveBuild) (stdout stderr : String)
    (succeeded : Bool) (reported : String) (note : Option String) : BuildResult :=
  let selected := if !succeeded || build.request.showOutput then stdout else reported
  { targetFile := build.request.targetFile.shown config.homeDir
    outputs :=
      [⟨.normal, selected⟩, ⟨.error, stderr⟩]
        ++ (note.map fun text => (⟨.error, Text.endLine text⟩ : Output)).toList
        ++ ((shownWarning? build succeeded).map fun text => (⟨.error, text⟩ : Output)).toList
    diagnostics := diagnosticsOf dialect build.request selected stderr }

/-- Ends a build: gathers what still waits on the console, undoes the patch, publishes the result
    and comes to rest.  A toolchain warning goes to the console too, once it is read no longer. -/
def finish (s : Session) (build : ActiveBuild) (succeeded : Bool) (reported : String)
    (note : Option String) : BuildResult × Session :=
  let (_, drained) := s.drainConsole
  let result := resultOf s.config s.dialect build drained.capture.stdout drained.capture.stderr
    succeeded reported note
  let (capture, console) := drained.capture.reset drained.console
  let console :=
    match shownWarning? build succeeded with
    | some text => console.send ⟨.error, text⟩
    | none => console
  (result,
    { drained with
      active := none
      capture := capture
      console := console
      events := drained.events.publish build.id (.completed result)
      environment := undo drained.environment build.saved })

/-- Ends the build of that number, if its tool has ended and the result is due. -/
def finalize (s : Session) (id : BuildId) (succeeded : Bool) (reported : String) :
    Option BuildResult × Session :=
  match s.active with
  | none => (none, s)
  | some build =>
    if build.phase = .completionPending ∧ build.id = id then
      let (result, s) := s.finish build succeeded reported none
      (some result, s)
    else (none, s)

/-- What the result of a build says that never reported its end. -/
def watchdogNote (config : Config) : String :=
  "build did not report completion within " ++ Text.showNat config.watchdogTimeoutSecs.toNat ++ "s"

/-- Ends the build of that number as failed, if its tool has not reported its end. -/
def onWatchdog (s : Session) (id : BuildId) : Option BuildResult × Session :=
  match s.active with
  | none => (none, s)
  | some build =>
    if build.phase = .building ∧ build.id = id then
      let (result, s) := s.finish build false "" (some (watchdogNote s.config))
      (some result, s)
    else (none, s)

/-- Does what was put off. -/
def runDeferred (s : Session) : Deferred → Session
  | .finalize id succeeded reported => (s.finalize id succeeded reported).2
  | .watchdog id => (s.onWatchdog id).2

/-- Moves the clock forward and does what falls due; says how much that was. -/
def advance (s : Session) (by_ : Duration) : Nat × Session :=
  let (count, schedule, s) :=
    s.schedule.advance (fun _ task (s : Session) => s.runDeferred task) by_ s
  (count, { s with schedule := schedule })

/-- Writes a chunk to the console; says how many readers there are. -/
def write (s : Session) (c : Chunk) : Nat × Session :=
  (s.console.audience, { s with console := s.console.send c })

/-- Ends the console. -/
def closeConsole (s : Session) : Session :=
  { s with console := s.console.close }

end Session

end BuildSupervisor
