import BuildSupervisor.Proofs.Schedule.Advance
import BuildSupervisor.Session.Operation
/-!
# Sessions in separate fields

A `Session` knows what it does just now from the build it looks after.  A `FlatSession` notes it in
a field of its own, beside the record of the build, so that every operation has to keep the two
together: one returns early, one takes the record out before the build ends, one comes to rest
twice.  `Session.flat` is the flat view of a session, and `FlatSession.run_flat` says that whatever
is done to both leaves the one the view of the other; so the field and the record never part.
-/

namespace BuildSupervisor

/-- What is known of a build, but for how far it has come. -/
structure BuildRecord where
  id : BuildId
  request : BuildRequest
  saved : Option SavedVariable
  warning : Option PatchWarning

namespace BuildRecord

/-- The build of a record, when it has come so far. -/
def build (r : BuildRecord) (phase : BuildPhase) : ActiveBuild :=
  ⟨r.id, r.request, phase, r.saved, r.warning⟩

end BuildRecord

/-- What is known of the build, but for how far it has come. -/
def ActiveBuild.record (build : ActiveBuild) : BuildRecord :=
  ⟨build.id, build.request, build.saved, build.warning⟩

/-- A session that notes what it does beside the build that it looks after. -/
structure FlatSession where
  config : Config
  dialect : Dialect
  state : SessionState
  record : Option BuildRecord
  capture : Capture
  lastId : BuildId
  console : Console
  events : EventBus
  environment : Environment
  schedule : Schedule Deferred

namespace FlatSession

def new (config : Config) (dialect : Dialect) (environment : Environment) (console : Console) :
    FlatSession where
  config := config
  dialect := dialect
  state := .idle
  record := none
  capture := Capture.new config.normalizeNewlines
  lastId := 0
  console := console
  events := EventBus.new
  environment := environment
  schedule := Schedule.new

def currentBuild? (f : FlatSession) : Option BuildId :=
  f.record.map BuildRecord.id

def status (f : FlatSession) : SessionStatus :=
  ⟨f.state, f.currentBuild?, f.record.map fun r => r.request.targetFile⟩

/-- Forgets the build, if there is one, and whatever was gathered. -/
def reset (f : FlatSession) : FlatSession :=
  let environment :=
    match f.record with
    | some r => Session.undo f.environment r.saved
    | none => f.environment
  let (capture, console) := f.capture.reset f.console
  { f with
    state := .idle
    record := none
    capture := capture
    console := console
    environment := environment }

def defer (f : FlatSession) (delay : Duration) (task : Deferred) : FlatSession :=
  { f with schedule := f.schedule.schedule delay (Job.single task) }

/-- Takes a build.  A console that is closed leaves record and state as they were. -/
def begin (f : FlatSession) (located : Located) (request : BuildRequest) :
    Except SessionError StartOutcome × FlatSession :=
  let f := { f with lastId := f.lastId + 1 }
  let (patch, environment) := f.environment.patch f.config.pathVariable located
  match f.capture.subscribe? f.console with
  | none => (.error .consoleClosed, { f with environment := Session.undo environment patch.saved? })
  | some (capture, console) =>
    let f : FlatSession :=
      { f with
        state := .building
        record := some ⟨f.lastId, request, patch.saved?, patch.warning?⟩
        capture := capture
        console := console
        events := f.events.publish f.lastId .started
        environment := environment }
    match f.config.watchdogTimeout? with
    | some timeout => (.ok (.accepted f.lastId), f.defer timeout (.watchdog f.lastId))
    | none => (.ok (.accepted f.lastId), f)

def start (f : FlatSession) (located : Located) (request : BuildRequest) :
    Except SessionError StartOutcome × FlatSession :=
  match f.record, f.config.reentry with
  | some r, .reject => (.ok (.busy r.id), f)
  | _, _ => f.reset.begin located request

def onOutputChunk (f : FlatSession) (c : Chunk) : Bool × FlatSession :=
  (f.capture.isSubscribed, { f with capture := f.capture.append c })

def drainConsole (f : FlatSession) : Nat × FlatSession :=
  let (count, capture, console) := f.capture.drain f.console
  (count, { f with capture := capture, console := console })

def nextChunk (f : FlatSession) : NextChunk × FlatSession :=
  let (next, capture, console) := f.capture.next f.console
  (next, { f with capture := capture, console := console })

def onBuildComplete (f : FlatSession) (succeeded : Bool) (reported : String) :
    Bool × FlatSession :=
  match f.record with
  | none => (false, f)
  | some r =>
    if f.state = .building then
      (true, { f with state := .completionPending }.defer f.config.completionDelay
        (.finalize r.id succeeded reported))
    else (false, f)

/-- Ends a build whose record has been taken out already: only the last step notes that the
    session is at rest. -/
def finish (f : FlatSession) (r : BuildRecord) (succeeded : Bool) (reported : String)
    (note : Option String) : BuildResult × FlatSession :=
  let (_, f) := f.drainConsole
  let environment := Session.undo f.environment r.saved
  let (capture, console) := f.capture.unsubscribe f.console
  let build := r.build .completionPending
  let result :=
    Session.resultOf f.config f.dialect build capture.stdout capture.stderr succeeded reported note
  let console :=
    match Session.shownWarning? build succeeded with
    | some text => console.send ⟨.error, text⟩
    | none => console
  (result,
    { f with
      capture := capture.clear
      console := console
      events := f.events.publish r.id (.completed result)
      environment := environment }.reset)

def finalize (f : FlatSession) (id : BuildId) (succeeded : Bool) (reported : String) :
    Option BuildResult × FlatSession :=
  if f.state = .completionPending ∧ f.currentBuild? = some id then
    match f.record with
    | none => (none, f)
    | some r =>
      let (result, f) := { f with record := none }.finish r succeeded reported none
      (some result, f)
  else (none, f)

def onWatchdog (f : FlatSession) (id : BuildId) : Option BuildResult × FlatSession :=
  if f.state = .building ∧ f.currentBuild? = some id then
    match f.record with
    | none => (none, f)
    | some r =>
      let note := Session.watchdogNote f.config
      let (result, f) := { f with record := none }.finish r false "" (some note)
      (some result, f)
  else (none, f)

def runDeferred (f : FlatSession) : Deferred → FlatSession
  | .finalize id succeeded reported => (f.finalize id succeeded reported).2
  | .watchdog id => (f.onWatchdog id).2

def advance (f : FlatSession) (by_ : Duration) : Nat × FlatSession :=
  let (count, schedule, f) :=
    f.schedule.advance (fun _ task (f : FlatSession) => f.runDeferred task) by_ f
  (count, { f with schedule := schedule })

def write (f : FlatSession) (c : Chunk) : Nat × FlatSession :=
  (f.console.audience, { f with console := f.console.send c })

def closeConsole (f : FlatSession) : FlatSession :=
  { f with console := f.console.close }

def apply (f : FlatSession) : Operation → Answer × FlatSession
  | .start located request => (f.start located request).map .started id
  | .outputChunk c => (f.onOutputChunk c).map .accepted id
  | .drainConsole => f.drainConsole.map .counted id
  | .nextChunk => f.nextChunk.map .next id
  | .buildComplete succeeded reported => (f.onBuildComplete succeeded reported).map .accepted id
  | .finalize number succeeded reported => (f.finalize number succeeded reported).map .result id
  | .watchdog number => (f.onWatchdog number).map .result id
  | .advance by_ => (f.advance by_).map .counted id
  | .reset => (.done, f.reset)
  | .write c => (f.write c).map .counted id
  | .closeConsole => (.done, f.closeConsole)

def run (f : FlatSession) : List Operation → FlatSession
  | [] => f
  | op :: ops => run (f.apply op).2 ops

def answers (f : FlatSession) : List Operation → List Answer
  | [] => []
  | op :: ops => (f.apply op).1 :: answers (f.apply op).2 ops

end FlatSession

/-- The session in separate fields. -/
def Session.flat (s : Session) : FlatSession where
  config := s.config
  dialect := s.dialect
  state := s.state
  record := s.active.map ActiveBuild.record
  capture := s.capture
  lastId := s.lastId
  console := s.console
  events := s.events
  environment := s.environment
  schedule := s.schedule

namespace FlatSession

variable (s : Session)

theorem flat_new (config : Config) (dialect : Dialect) (environment : Environment)
    (console : Console) :
    (Session.new config dialect environment console).flat =
      new config dialect environment console :=
  rfl

theorem flat_reset : s.flat.reset = s.reset.flat := by
  obtain ⟨_, _, active, _⟩ := s
  cases active <;> rfl

theorem status_flat : s.flat.status = s.status := by
  obtain ⟨_, _, active, _⟩ := s
  cases active <;> rfl

theorem flat_begin (located : Located) (request : BuildRequest) :
    s.flat.begin located request =
      ((s.begin located request).1, (s.begin located request).2.flat) := by
  unfold begin Session.begin
  change (match s.capture.subscribe? s.console with | none => _ | some (capture, console) => _) = _
  cases s.capture.subscribe? s.console with
  | none => rfl
  | some reading =>
    change (match s.config.watchdogTimeout? with | some timeout => _ | none => _) = _
    cases s.config.watchdogTimeout? <;> rfl

theorem flat_start (located : Located) (request : BuildRequest) :
    s.flat.start located request =
      ((s.start located request).1, (s.start located request).2.flat) := by
  have begun := flat_begin s.reset located request
  rw [← flat_reset] at begun
  unfold start Session.start
  cases active : s.active with
  | none =>
    have there : s.flat.record = none := by rw [Session.flat, active, Option.map_none]
    rw [there]
    exact begun
  | some build =>
    have there : s.flat.record = some build.record := by rw [Session.flat, active, Option.map_some]
    rw [there]
    change (match some build.record, s.config.reentry with | some r, .reject => _ | _, _ => _) = _
    cases s.config.reentry with
    | reject => rfl
    | replace => exact begun

theorem flat_onBuildComplete (succeeded : Bool) (said : String) :
    s.flat.onBuildComplete succeeded said =
      ((s.onBuildComplete succeeded said).1, (s.onBuildComplete succeeded said).2.flat) := by
  obtain ⟨_, _, active, _⟩ := s
  cases active with
  | none => rfl
  | some build =>
    obtain ⟨_, _, phase, _, _⟩ := build
    cases phase <;> rfl

/-- The end of a build comes to rest twice in the flat session, which shows nowhere. -/
theorem flat_finish (build : ActiveBuild) (succeeded : Bool) (said : String)
    (note : Option String) :
    { s.flat with record := none }.finish build.record succeeded said note =
      ((s.finish build succeeded said note).1, (s.finish build succeeded said note).2.flat) := by
  simp only [finish, Session.finish, drainConsole, Session.drainConsole, Session.flat]
  obtain ⟨_, ⟨_, subscription, _, _⟩, _⟩ := s.capture.drain s.console
  cases subscription <;> rfl

/-- What the flat session asks of field and record is what a session asks of its build. -/
theorem state_flat {build : ActiveBuild} (active : s.active = some build) :
    (s.flat.state = .building ↔ build.phase = .building) ∧
      (s.flat.state = .completionPending ↔ build.phase = .completionPending) := by
  have state : s.flat.state = s.state := rfl
  rw [state, Session.state, active]
  obtain ⟨_, _, phase, _, _⟩ := build
  cases phase <;> simp

theorem currentBuild?_flat : s.flat.currentBuild? = s.currentBuild? := by
  obtain ⟨_, _, active, _⟩ := s
  cases active <;> rfl

theorem flat_finalize (id : BuildId) (succeeded : Bool) (said : String) :
    s.flat.finalize id succeeded said =
      ((s.finalize id succeeded said).1, (s.finalize id succeeded said).2.flat) := by
  unfold finalize Session.finalize
  rw [currentBuild?_flat, Session.currentBuild?]
  cases active : s.active with
  | none =>
    rw [Option.map_none, if_neg]
    rintro ⟨_, ⟨⟩⟩
  | some build =>
    have there : s.flat.record = some build.record := by rw [Session.flat, active, Option.map_some]
    simp only [there, (state_flat s active).2, Option.map_some, Option.some.injEq]
    split
    · rw [flat_finish]
    · rfl

theorem flat_onWatchdog (id : BuildId) :
    s.flat.onWatchdog id = ((s.onWatchdog id).1, (s.onWatchdog id).2.flat) := by
  unfold onWatchdog Session.onWatchdog
  rw [currentBuild?_flat, Session.currentBuild?]
  cases active : s.active with
  | none =>
    rw [Option.map_none, if_neg]
    rintro ⟨_, ⟨⟩⟩
  | some build =>
    have there : s.flat.record = some build.record := by rw [Session.flat, active, Option.map_some]
    simp only [there, (state_flat s active).1, Option.map_some, Option.some.injEq]
    split
    · rw [flat_finish]
      rfl
    · rfl

theorem flat_runDeferred (task : Deferred) : s.flat.runDeferred task = (s.runDeferred task).flat := by
  cases task with
  | finalize id succeeded said => exact congrArg Prod.snd (flat_finalize s id succeeded said)
  | watchdog id => exact congrArg Prod.snd (flat_onWatchdog s id)

theorem flat_advance (by_ : Duration) :
    s.flat.advance by_ = ((s.advance by_).1, (s.advance by_).2.flat) := by
  have moved := Schedule.runUntil_map (fun _ task (t : Session) => t.runDeferred task)
    (fun _ task (f : FlatSession) => f.runDeferred task) Session.flat
    (fun _ task t => (flat_runDeferred t task).symm) (s.schedule.now.add by_) s.schedule s
  unfold advance Session.advance Schedule.advance
  change _ = _ at moved
  rw [show s.flat.schedule = s.schedule from rfl, moved]
  rfl

/-- One operation does the same to a session and to its flat view. -/
theorem flat_apply (op : Operation) :
    s.flat.apply op = ((s.apply op).1, (s.apply op).2.flat) := by
  cases op with
  | start located request => rw [apply, flat_start]; rfl
  | buildComplete succeeded said => rw [apply, flat_onBuildComplete]; rfl
  | finalize id succeeded said => rw [apply, flat_finalize]; rfl
  | watchdog id => rw [apply, flat_onWatchdog]; rfl
  | advance by_ => rw [apply, flat_advance]; rfl
  | reset => rw [apply, flat_reset]; rfl
  | _ => rfl

/-- Whatever is done to both, the one stays the view of the other, and they answer the same. -/
theorem run_flat (ops : List Operation) :
    s.flat.run ops = (s.run ops).flat ∧ s.flat.answers ops = s.answers ops := by
  induction ops generalizing s with
  | nil => exact ⟨rfl, rfl⟩
  | cons op ops ih =>
    have step := flat_apply s op
    obtain ⟨runs, answers⟩ := ih (s.apply op).2
    constructor
    · rw [run, step]
      exact runs
    · rw [FlatSession.answers, Session.answers, step]
      exact congrArg _ answers

end FlatSession

end BuildSupervisor
