import BuildSupervisor.Report
import BuildSupervisor.Session.Service
import BuildSupervisor.Tool.Lines
import BuildSupervisor.Tool.Run
/-!
# Invokers

An invoker asks a service for a build, runs the tool with its output on the console, tells the
service how the tool ended and waits for the result.  `Invoker.step?` does one thing of this, so
that any number of invokers and the service may take turns in any order; `Service.runBuild` is the
run in which everything happens as soon as it can.
-/

namespace BuildSupervisor

/-- What comes of asking for a build. -/
inductive Outcome where
  | finished (report : Report)
  /-- Another build was in the way. -/
  | busy (active : BuildId)
  deriving DecidableEq, Repr

/-- Why nothing is known of a build. -/
inductive InvokeError where
  | session (e : SessionError)
  /-- The notification of the result did not come. -/
  | unheard (e : ListenError)
  deriving DecidableEq, Repr

namespace InvokeError

/-- What is said of an error, and then of its causes. -/
def reasons : InvokeError → List String
  | session .consoleClosed => [SessionError.consoleClosed.message, "Console stream is closed"]
  | session .stopped => [SessionError.stopped.message]
  | unheard e => ["session stopped before the build completed", e.message]

/-- The error with its causes in one text. -/
def message (e : InvokeError) : String :=
  String.intercalate ": " e.reasons

end InvokeError

/-- A tool that runs: the lines that its pipes still hold, those of its output that have been read,
    and how it will end. -/
structure RunningTool where
  stdout : List String
  stderr : List String
  said : List String
  status : ExitStatus
  deriving DecidableEq, Repr

namespace RunningTool

/-- A run of which nothing has been read. -/
def ofRun (p : ToolRun) : RunningTool :=
  ⟨Pipe.lines p.stdout, Pipe.lines p.stderr, [], p.status⟩

/-- Reads a line of the output. -/
def readStdout? (t : RunningTool) : Option (Chunk × RunningTool) :=
  match t.stdout with
  | [] => none
  | line :: rest =>
    some (Pipe.chunkOf .normal line, { t with stdout := rest, said := t.said ++ [line] })

/-- Reads a line of the error output. -/
def readStderr? (t : RunningTool) : Option (Chunk × RunningTool) :=
  match t.stderr with
  | [] => none
  | line :: rest => some (Pipe.chunkOf .error line, { t with stderr := rest })

/-- Reads a line from either pipe, from the `first` one if it holds any. -/
def read? (t : RunningTool) (first : OutputKind) : Option (Chunk × RunningTool) :=
  match first with
  | .normal => t.readStdout?.or t.readStderr?
  | .error => t.readStderr?.or t.readStdout?

/-- How many lines the pipes still hold. -/
def unread (t : RunningTool) : Nat :=
  t.stdout.length + t.stderr.length

theorem readStdout?_eq_some {t next : RunningTool} {c : Chunk}
    (h : t.readStdout? = some (c, next)) :
    ∃ line rest, t.stdout = line :: rest ∧ c = Pipe.chunkOf .normal line ∧
      next = { t with stdout := rest, said := t.said ++ [line] } := by
  unfold readStdout? at h
  split at h
  · cases h
  · rename_i line rest there
    cases h
    exact ⟨line, rest, there, rfl, rfl⟩

theorem readStderr?_eq_some {t next : RunningTool} {c : Chunk}
    (h : t.readStderr? = some (c, next)) :
    ∃ line rest, t.stderr = line :: rest ∧ c = Pipe.chunkOf .error line ∧
      next = { t with stderr := rest } := by
  unfold readStderr? at h
  split at h
  · cases h
  · rename_i line rest there
    cases h
    exact ⟨line, rest, there, rfl, rfl⟩

/-- What is read is the next line of one of the pipes. -/
theorem read?_cases {t next : RunningTool} {first : OutputKind} {c : Chunk}
    (h : t.read? first = some (c, next)) :
    t.readStdout? = some (c, next) ∨ t.readStderr? = some (c, next) := by
  cases first with
  | normal => exact (Option.or_eq_some_iff.mp h).imp_right And.right
  | error => exact ((Option.or_eq_some_iff.mp h).imp_right And.right).symm

/-- Reading a line leaves one less in the pipes. -/
theorem unread_read {t next : RunningTool} {first : OutputKind} {c : Chunk}
    (h : t.read? first = some (c, next)) : t.unread = next.unread + 1 := by
  rcases read?_cases h with read | read
  · obtain ⟨line, rest, there, rfl, rfl⟩ := readStdout?_eq_some read
    simp only [unread, there, List.length_cons]
    omega
  · obtain ⟨line, rest, there, rfl, rfl⟩ := readStderr?_eq_some read
    simp only [unread, there, List.length_cons]
    omega

end RunningTool

/-- How a tool ended, and what it said. -/
structure ToolEnd where
  succeeded : Bool
  exitCode : Option Int
  reported : String
  deriving DecidableEq, Repr

namespace ToolEnd

def notStarted : ToolEnd :=
  ⟨false, none, ""⟩

/-- The end of a tool whose pipes are empty. -/
def ofTool (t : RunningTool) : ToolEnd :=
  ⟨t.status.succeeded, t.status.code?, Text.joinLines t.said⟩

end ToolEnd

/-- How far an invoker has come. -/
inductive InvokerPhase where
  /-- The build has been asked for. -/
  | asking
  | running (id : BuildId) (tool : RunningTool)
  /-- The tool has ended, and the service is to be told. -/
  | reporting (id : BuildId) (ended : ToolEnd)
  /-- The service has been told, and the result is due. -/
  | waiting (id : BuildId) (ended : ToolEnd)
  | over (outcome : Except InvokeError Outcome)

/-- One who has asked for a build. -/
structure Invoker where
  command : ToolCommand
  launch : Launch
  /-- Tells the replies to this invoker apart from others. -/
  ticket : Ticket
  listener : Cursor
  phase : InvokerPhase

namespace Invoker

def ask (v : Service) (ticket : Ticket) (request : BuildRequest) (command : ToolCommand)
    (launch : Launch) (listener : Cursor) : Invoker × Service :=
  match v.send? ticket (.start request) with
  | some v => (⟨command, launch, ticket, listener, .asking⟩, v)
  | none => (⟨command, launch, ticket, listener, .over (.error (.session .stopped))⟩, v)

/-- Starts the tool of a build; a tool that cannot be started says so on the console. -/
def startTool (i : Invoker) (id : BuildId) (v : Service) : Invoker × Service :=
  match i.launch v.session.environment with
  | .ok run => ({ i with phase := .running id (RunningTool.ofRun run) }, v)
  | .error e =>
    ({ i with phase := .reporting id ToolEnd.notStarted },
      { v with session := (v.session.write ⟨.error, i.command.failure e⟩).2 })

def takeReply? (i : Invoker) (v : Service) : Option (Invoker × Service) :=
  match v.reply? i.ticket with
  | some (.started (.ok (.accepted id))) => some (i.startTool id v)
  | some (.started (.ok (.busy active))) => some ({ i with phase := .over (.ok (.busy active)) }, v)
  | some (.started (.error e)) => some ({ i with phase := .over (.error (.session e)) }, v)
  | some _ | none =>
    if v.stopped then some ({ i with phase := .over (.error (.session .stopped)) }, v) else none

/-- Reads a line that the tool has written, or learns how it ended. -/
def readTool (i : Invoker) (first : OutputKind) (id : BuildId) (tool : RunningTool)
    (v : Service) : Invoker × Service :=
  match tool.read? first with
  | some (c, tool) =>
    ({ i with phase := .running id tool }, { v with session := (v.session.write c).2 })
  | none => ({ i with phase := .reporting id (ToolEnd.ofTool tool) }, v)

def report (i : Invoker) (id : BuildId) (ended : ToolEnd) (v : Service) : Invoker × Service :=
  match v.send? i.ticket (.buildComplete ended.succeeded ended.reported) with
  | some v => ({ i with phase := .waiting id ended }, v)
  | none => ({ i with phase := .over (.error (.session .stopped)) }, v)

/-- What a notification of the result comes to. -/
def outcomeOf (ended : ToolEnd) (n : Notification) : Option Outcome :=
  match n.event with
  | .completed result => some (.finished ⟨n.buildId, ended.succeeded, ended.exitCode, result⟩)
  | .started => none

/-- Looks for the notification of the result. -/
def takeResult? (i : Invoker) (id : BuildId) (ended : ToolEnd) (v : Service) :
    Option (Invoker × Service) :=
  match v.session.events.completionOf id i.listener with
  | (.ok none, _) => none
  | (.ok (some n), cursor) =>
    (outcomeOf ended n).map fun outcome =>
      ({ i with listener := cursor, phase := .over (.ok outcome) }, v)
  | (.error e, cursor) =>
    some ({ i with listener := cursor, phase := .over (.error (.unheard e)) }, v)

/-- Does what comes next; `none` where the invoker waits or all is over.  `first` says which pipe
    is read first. -/
def step? (i : Invoker) (first : OutputKind) (v : Service) : Option (Invoker × Service) :=
  match i.phase with
  | .asking => i.takeReply? v
  | .running id tool => some (i.readTool first id tool v)
  | .reporting id ended => some (i.report id ended v)
  | .waiting id ended => i.takeResult? id ended v
  | .over _ => none

/-- What an invoker has still to do: the phases before it, and the lines that it has to read. -/
def remaining (i : Invoker) : Nat × Nat :=
  match i.phase with
  | .asking => (4, 0)
  | .running _ tool => (3, tool.unread)
  | .reporting .. => (2, 0)
  | .waiting .. => (1, 0)
  | .over _ => (0, 0)

/-- A step leaves less to do. -/
theorem remaining_step {i next : Invoker} {first : OutputKind} {v w : Service}
    (h : i.step? first v = some (next, w)) :
    Prod.Lex (· < ·) (· < ·) next.remaining i.remaining := by
  unfold step? at h
  split at h
  · rename_i hp
    apply Service.less_of_fst
    have old : i.remaining.1 = 4 := by simp [remaining, hp]
    rw [old]
    simp only [takeReply?] at h
    split at h
    · simp only [startTool, Option.some.injEq] at h
      split at h <;> simp only [Prod.mk.injEq] at h <;> rw [← h.1] <;> simp [remaining]
    · simp only [Option.some.injEq, Prod.mk.injEq] at h
      simp [← h.1, remaining]
    · simp only [Option.some.injEq, Prod.mk.injEq] at h
      simp [← h.1, remaining]
    all_goals
      split at h
      · simp only [Option.some.injEq, Prod.mk.injEq] at h
        simp [← h.1, remaining]
      · simp at h
  · rename_i id tool hp
    simp only [readTool, Option.some.injEq] at h
    split at h
    · rename_i hr
      simp only [Prod.mk.injEq] at h
      have fewer := RunningTool.unread_read hr
      simp only [← h.1, remaining, hp]
      exact Prod.Lex.right _ (by omega)
    · simp only [Prod.mk.injEq] at h
      exact Service.less_of_fst (by simp [← h.1, remaining, hp])
  · rename_i hp
    simp only [report, Option.some.injEq] at h
    split at h <;> simp only [Prod.mk.injEq] at h <;>
      exact Service.less_of_fst (by simp [← h.1, remaining, hp])
  · rename_i hp
    simp only [takeResult?] at h
    split at h
    · simp at h
    · simp only [Option.map_eq_some_iff, Prod.mk.injEq] at h
      obtain ⟨_, _, h, _⟩ := h
      exact Service.less_of_fst (by simp [← h, remaining, hp])
    · simp only [Option.some.injEq, Prod.mk.injEq] at h
      exact Service.less_of_fst (by simp [← h.1, remaining, hp])
  · simp at h

/-- Steps until the invoker waits or all is over; the service rests before each step. -/
def proceed (i : Invoker) (v : Service) : Invoker × Service :=
  match _h : i.step? .normal v.rest with
  | none => (i, v.rest)
  | some (next, w) => proceed next w
termination_by i.remaining
decreasing_by exact remaining_step _h

/-- The outcome that the next step brings, if it brings one. -/
def nextOutcome? (i : Invoker) (v : Service) : Option (Except InvokeError Outcome) :=
  match i.step? .normal v with
  | some (⟨_, _, _, _, .over outcome⟩, _) => some outcome
  | _ => none

end Invoker

namespace Service

/-- Asks for a build, runs its tool and waits for the outcome, for which the time goes on as far as
    it has to; `none` if it never comes. -/
def runBuild (v : Service) (ticket : Ticket) (request : BuildRequest) (command : ToolCommand)
    (launch : Launch) : Option (Except InvokeError Outcome) × Service :=
  match v.session.events.listen? with
  | none => (some (.error (.unheard .closed)), v)
  | some (listener, events) =>
    let v := { v with session := { v.session with events := events } }
    let (i, v) := Invoker.ask v ticket request command launch listener
    let (i, v) := i.proceed v
    match i.phase with
    | .over outcome => (some outcome, v)
    | _ => v.wait i.nextOutcome? Duration.max

end Service

end BuildSupervisor
