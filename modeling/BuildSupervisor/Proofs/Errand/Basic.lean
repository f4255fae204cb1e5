import BuildSupervisor.Proofs.Crew.Effect
import BuildSupervisor.Proofs.Session.Deadline
import BuildSupervisor.Proofs.Tool.Pieces
/-!
# Errands

An errand is a single invoker on a service of its own.  The session of the service may have looked
after other builds before; it is at rest when the invoker asks for a build.  A run of an errand is
any list of turns of the service, of the invoker and of the clock.

`Errand.At` is the invariant of these runs.  It goes by the `Stage` to which the service has come
with the build, and by the phase of the invoker.
-/

namespace BuildSupervisor

/-- Whether the turn is one of the service, of the first invoker or of the clock. -/
def Turn.isOwn : Turn → Bool
  | .serve => true
  | .arrive _ => true
  | .elapse _ => true
  | .proceed index _ => index = 0
  | _ => false

/-- What a task says of the build that it ends. -/
def Deferred.succeeds : Deferred → Bool
  | .finalize _ succeeded _ => succeeded
  | .watchdog _ => false

namespace Crew

/-- What has come of the first invoker. -/
def outcome? (c : Crew) : Option (Except InvokeError Outcome) :=
  match c.invokers.head?.map Invoker.phase with
  | some (.over outcome) => some outcome
  | _ => none

/-- The task with which the service ends a build in the turn. -/
def ending? (c : Crew) : Turn → Option Deferred
  | .serve =>
    if (c.turn .serve).service.session.events.log = c.service.session.events.log then none
    else c.service.dueTask?
  | _ => none

/-- The tasks with which the service ends builds in a run. -/
def endings (c : Crew) : List Turn → List Deferred
  | [] => []
  | t :: turns => (c.ending? t).toList ++ endings (c.turn t) turns

theorem endings_concat (c : Crew) (turns : List Turn) (t : Turn) :
    c.endings (turns ++ [t]) = c.endings turns ++ ((c.run turns).ending? t).toList := by
  induction turns generalizing c with
  | nil => simp [endings, run]
  | cons first turns ih =>
    rw [List.cons_append, endings, ih, endings, List.append_assoc]
    rfl

end Crew

/-- A single invoker, and the session that it turns to. -/
structure Errand where
  session : Session
  /-- Which directories the toolchain needs. -/
  located : Located
  request : BuildRequest
  command : ToolCommand
  launch : Launch
  rest : session.active = none
  booked : session.Booked
  ending : session.capture.endLines = session.config.normalizeNewlines
  given : ∀ task ∈ session.schedule.actions, task.buildId ≤ session.lastId
  isOpen : session.console.closed = false
  /-- A listener does not lose a notification as long as there are only two. -/
  roomy : 2 ≤ session.events.channel.ring

namespace Errand

/-- The crew after the invoker has asked. -/
def start (e : Errand) : Crew :=
  (Crew.new e.session e.located).turn (.join e.request e.command e.launch)

def after (e : Errand) (turns : List Turn) : Crew :=
  e.start.run turns

def outcome? (e : Errand) (turns : List Turn) : Option (Except InvokeError Outcome) :=
  (e.after turns).outcome?

def endings (e : Errand) (turns : List Turn) : List Deferred :=
  e.start.endings turns

/-- The build that is taken up. -/
def build (e : Errand) : ActiveBuild :=
  e.session.opened e.located e.request

def id (e : Errand) : BuildId :=
  e.session.lastId + 1

/-- The invoker in a phase; it has read the notifications up to `listener`. -/
def invoker (e : Errand) (listener : Cursor) (phase : InvokerPhase) : Invoker :=
  ⟨e.command, e.launch, 0, listener, phase⟩

/-- From where the invoker listens. -/
def listener (e : Errand) : Cursor :=
  ⟨e.session.events.log.length⟩

/-- The environment while the build is looked after. -/
def patched (e : Errand) : Environment :=
  (e.session.patchFor e.located).2

/-- How the tool ends that is launched in an environment. -/
def toolEnd (e : Errand) (environment : Environment) : ToolEnd :=
  match e.launch environment with
  | .ok run =>
    ⟨run.status.succeeded, run.status.code?, Text.joinLines (Pipe.linesOf run.stdout.flatten)⟩
  | .error _ => ToolEnd.notStarted

/-- The texts that are written to the console while the tool runs. -/
def texts (e : Errand) (environment : Environment) (stream : OutputKind) : List String :=
  match e.launch environment, stream with
  | .ok run, .normal => (Pipe.linesOf run.stdout.flatten).map (· ++ "\n")
  | .ok run, .error => (Pipe.linesOf run.stderr.flatten).map (· ++ "\n")
  | .error _, .normal => []
  | .error failure, .error => [e.command.failure failure]

/-- The result that the build has to get. -/
def result (e : Errand) : BuildResult :=
  let ended := e.toolEnd e.patched
  let written := String.join (e.texts e.patched .normal)
  let errors := String.join (e.texts e.patched .error)
  let shown := if !ended.succeeded || e.request.showOutput then written else ended.reported
  { targetFile := e.request.targetFile.shown e.session.config.homeDir
    outputs :=
      [⟨.normal, shown⟩, ⟨.error, errors⟩] ++
        if ended.succeeded then []
        else e.build.warning.toList.map fun w => ⟨.error, Text.endLine w.message⟩
    diagnostics :=
      if e.request.fromCode then []
      else e.session.dialect.parse (shown ++ "\n" ++ errors) e.request.targetFile.baseDirectory }

/-- The task that makes the result when the end of the tool has been reported. -/
def final (e : Errand) : Deferred :=
  .finalize e.id (e.toolEnd e.patched).succeeded (e.toolEnd e.patched).reported

end Errand

/-- The texts of the chunks of a stream. -/
def textsOf (chunks : List Chunk) (stream : OutputKind) : List String :=
  (chunks.filter fun c => c.stream = stream).map Chunk.text

theorem textsOf_append (first second : List Chunk) (stream : OutputKind) :
    textsOf (first ++ second) stream = textsOf first stream ++ textsOf second stream := by
  simp only [textsOf, List.filter_append, List.map_append]

namespace Errand

/-- How far the service has come with the build. -/
inductive Stage where
  | asked
  | building
  | reported
  | expired (result : BuildResult)
  | finished (result : BuildResult)

namespace Stage

/-- The build at hand. -/
def active? (e : Errand) : Stage → Option ActiveBuild
  | building => some e.build
  | reported => some { e.build with phase := .completionPending }
  | _ => none

def environment (e : Errand) : Stage → Environment
  | building => e.patched
  | reported => e.patched
  | _ => e.session.reset.environment

def lastId (e : Errand) : Stage → BuildId
  | asked => e.session.lastId
  | _ => e.id

/-- What has been published of the build. -/
def told (e : Errand) : Stage → List Notification
  | asked => []
  | building => [⟨e.session.events.log.length + 1, e.id, .started⟩]
  | reported => [⟨e.session.events.log.length + 1, e.id, .started⟩]
  | expired result => [⟨e.session.events.log.length + 1, e.id, .started⟩,
      ⟨e.session.events.log.length + 2, e.id, .completed result⟩]
  | finished result => [⟨e.session.events.log.length + 1, e.id, .started⟩,
      ⟨e.session.events.log.length + 2, e.id, .completed result⟩]

def replies (e : Errand) : Stage → List (Ticket × Reply)
  | asked => []
  | _ => [(0, .started (.ok (.accepted e.id)))]

/-- The tasks by which the build has been ended. -/
def endings (e : Errand) : Stage → List Deferred
  | expired _ => [.watchdog e.id]
  | finished _ => [e.final]
  | _ => []

/-- Whether the invoker has told how the tool ended, and was heard. -/
def isReported : Stage → Bool
  | reported => true
  | finished _ => true
  | _ => false

/-- The result that the build has been given. -/
def result? : Stage → Option BuildResult
  | expired result => some result
  | finished result => some result
  | _ => none

/-- The task that is to end the build. -/
def last? (e : Errand) : Stage → Option Deferred
  | building => e.session.config.watchdogTimeout?.map fun _ => .watchdog e.id
  | reported => some e.final
  | _ => none

/-- Only a watchdog can make a build expire, and a build that finishes gets the right result, if the
    reading is `lossless`. -/
def Sound (e : Errand) (lossless : Prop) : Stage → Prop
  | expired _ => e.session.config.watchdogTimeout? ≠ none
  | finished result => lossless → result = e.result
  | _ => True

end Stage

/-- What may be put off at a stage. -/
inductive MayBePutOff (e : Errand) : Stage → Deferred → Prop where
  | stale {stage task} : task.buildId ≤ e.session.lastId → MayBePutOff e stage task
  | watchdog {stage} : e.session.config.watchdogTimeout? ≠ none → stage ≠ .asked →
      MayBePutOff e stage (.watchdog e.id)
  | final {stage} : stage.isReported = true → MayBePutOff e stage e.final

/-- The session has come to a stage with the build, and the invoker has written `chunks` since the
    build was accepted.  If the reading is `lossless`, they have been gathered or wait. -/
structure Tends (e : Errand) (lossless : Prop) (stage : Stage) (chunks : List Chunk)
    (s : Session) : Prop where
  config : s.config = e.session.config
  dialect : s.dialect = e.session.dialect
  active : s.active = stage.active? e
  environment : s.environment = stage.environment e
  lastId : s.lastId = stage.lastId e
  isOpen : s.console.closed = false
  ending : s.capture.endLines = e.session.config.normalizeNewlines
  listening : s.events.channel.closed = false
  published : s.events.published = s.events.log.length
  roomy : 2 ≤ s.events.channel.ring
  log : s.events.log = e.session.events.log ++ stage.told e
  gathered : lossless → stage.active? e ≠ none →
    s.capture.Gathered e.session.config.normalizeNewlines s.console chunks
  sound : stage.Sound e lossless

/-- The service has come to a stage with the build. -/
structure Serves (e : Errand) (lossless : Prop) (stage : Stage) (chunks : List Chunk)
    (v : Service) : Prop where
  running : v.stopped = false
  handles : v.handles = 1
  located : v.located = e.located
  tends : Tends e lossless stage chunks v.session
  replies : v.replies = stage.replies e
  putOff : ∀ task ∈ v.putOff, e.MayBePutOff stage task
  due : ∀ task, stage.last? e = some task → task ∈ v.putOff

/-- What the invoker does for the build, with what it has sent that waits for the service and what
    it has written, if the tool is launched in `environment`. -/
inductive Duty (e : Errand) (environment : Environment) :
    InvokerPhase → List (Ticket × Command) → List Chunk → Prop where
  | asking : Duty e environment .asking [] []
  | running {run tool chunks} (errors : List String) : e.launch environment = .ok run →
      Pipe.linesOf run.stdout.flatten = tool.said ++ tool.stdout →
      Pipe.linesOf run.stderr.flatten = errors ++ tool.stderr → tool.status = run.status →
      textsOf chunks .normal = tool.said.map (· ++ "\n") →
      textsOf chunks .error = errors.map (· ++ "\n") →
      Duty e environment (.running e.id tool) [] chunks
  | reporting {chunks} : textsOf chunks = e.texts environment →
      Duty e environment (.reporting e.id (e.toolEnd environment)) [] chunks
  | sent {chunks} : textsOf chunks = e.texts environment →
      Duty e environment (.waiting e.id (e.toolEnd environment))
        [(0, .buildComplete (e.toolEnd environment).succeeded (e.toolEnd environment).reported)]
        chunks
  | heard {chunks} : textsOf chunks = e.texts environment →
      Duty e environment (.waiting e.id (e.toolEnd environment)) [] chunks

/-- What the invoker tells of the build in the end. -/
def reportOf (e : Errand) (environment : Environment) (result : BuildResult) : Report :=
  ⟨e.id, (e.toolEnd environment).succeeded, (e.toolEnd environment).exitCode, result⟩

/-- The report that the invoker has to come back with. -/
def report (e : Errand) : Report :=
  e.reportOf e.patched e.result

/-- How far the invoker has come at a stage. -/
inductive Attends (e : Errand) : Stage → InvokerPhase → List (Ticket × Command) → List Chunk →
    Prop where
  | asked : Attends e .asked .asking [(0, .start e.request)] []
  | building {phase inbox chunks} : Duty e e.patched phase inbox chunks →
      (∀ id ended, phase = .waiting id ended → inbox ≠ []) →
      Attends e .building phase inbox chunks
  | reported {chunks} : textsOf chunks = e.texts e.patched →
      Attends e .reported (.waiting e.id (e.toolEnd e.patched)) [] chunks
  | expired {result environment phase inbox chunks} : Duty e environment phase inbox chunks →
      environment = e.patched ∨ environment = e.session.reset.environment →
      Attends e (.expired result) phase inbox chunks
  | finished {result chunks} : textsOf chunks = e.texts e.patched →
      Attends e (.finished result) (.waiting e.id (e.toolEnd e.patched)) [] chunks
  | failed {result environment inbox chunks} :
      Duty e environment (.waiting e.id (e.toolEnd environment)) inbox chunks →
      environment = e.patched ∨ environment = e.session.reset.environment →
      Attends e (.expired result) (.over (.ok (.finished (e.reportOf environment result)))) inbox
        chunks
  | ended {result chunks} :
      Attends e (.finished result) (.over (.ok (.finished (e.reportOf e.patched result)))) []
        chunks

/-- The crew in the course of the errand. -/
structure At (e : Errand) (lossless : Prop) (stage : Stage) (phase : InvokerPhase)
    (chunks : List Chunk) (c : Crew) : Prop where
  serves : Serves e lossless stage chunks c.service
  invoker : ∃ listener, c.invokers = [e.invoker listener phase] ∧
    ((∀ outcome, phase ≠ .over outcome) → listener = e.listener)
  attends : Attends e stage phase c.service.inbox chunks

end Errand

end BuildSupervisor
