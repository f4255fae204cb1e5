import BuildSupervisor.Proofs.Console.Reading
import BuildSupervisor.Proofs.Session.Deadline
/-!
# Sessions that go on alike

Two sessions are `Alike` if nothing that is done to both of them tells one from the other, but for
the numbers of builds, the time on the clock and the tasks of builds that are gone.  Every
operation that names no build keeps them alike: `step_alike` is the one step of
`Session.independent_of_history`.
-/

namespace BuildSupervisor

/-- The number that a build of one session has in another, in which `b` is the number of the build
    that is `a` in the first. -/
def renumber (a b id : Nat) : Nat :=
  b + (id - a)

theorem renumber_self (a b : Nat) : renumber a b a = b := by
  simp [renumber]

theorem renumber_succ {a b id : Nat} (h : a ≤ id) :
    renumber a b (id + 1) = renumber a b id + 1 := by
  simp only [renumber]
  omega

theorem renumber_eq_iff {a b id : Nat} (h : a ≤ id) : renumber a b id = b ↔ id = a := by
  simp only [renumber]
  omega

def ActiveBuild.renumber (a b : BuildId) (build : ActiveBuild) : ActiveBuild :=
  { build with id := BuildSupervisor.renumber a b build.id }

/-- The answer with the numbers of another session. -/
def Answer.renumber (a b : BuildId) : Answer → Answer
  | .started (.ok (.accepted id)) => .started (.ok (.accepted (BuildSupervisor.renumber a b id)))
  | .started (.ok (.busy id)) => .started (.ok (.busy (BuildSupervisor.renumber a b id)))
  | answer => answer

namespace Operation

/-- Whether the operation names no build. -/
def isAnonymous : Operation → Bool
  | .finalize .. => false
  | .watchdog _ => false
  | _ => true

/-- Whether the answer is about the build at hand alone.  The clock counts the tasks of builds that
    are gone too, and who writes to the console is told how many read it; `even` says that as many
    others do so as in the other session. -/
def Tells (even : Prop) : Operation → Prop
  | .advance _ => False
  | .write _ => even
  | _ => True

/-- What is added to the time on the clock of a session. -/
def wait? (s : Session) : Operation → Option Duration
  | .start located request =>
    match (s.start located request).1 with
    | .ok (.accepted _) => s.config.watchdogTimeout?
    | _ => none
  | .buildComplete _ _ => if s.state = .building then some s.config.completionDelay else none
  | .advance by_ => some by_
  | _ => none

end Operation

namespace Session

/-- What an operation publishes. -/
def news (s : Session) (op : Operation) : List (BuildId × Event) :=
  ((s.apply op).2.events.log.drop s.events.log.length).map fun n => (n.buildId, n.event)

/-- The clock can show the time that the operation reckons with. -/
def Fits (s : Session) (op : Operation) : Prop :=
  match op.wait? s with
  | some wait => s.schedule.now.nanos + wait.nanos ≤ maxNanos
  | none => True

/-- Two builds end alike, each by its own clock. -/
def SameEnd (now now' : Duration) (x y : Duration × BuildEnd) : Prop :=
  y.2 = x.2 ∧ x.1.nanos + now'.nanos = y.1.nanos + now.nanos

/-- Nothing that is done to both sessions tells them apart, where the numbers of the second follow
    on `b` as those of the first follow on `a`. -/
structure Alike (even : Prop) (a b : BuildId) (s t : Session) : Prop where
  config : t.config = s.config
  dialect : t.dialect = s.dialect
  environment : t.environment = s.environment
  active : t.active = s.active.map (ActiveBuild.renumber a b)
  lastId : t.lastId = renumber a b s.lastId
  since : a ≤ s.lastId
  recent : ∀ build, s.active = some build → a ≤ build.id
  capture : Capture.Alike even s.capture s.console t.capture t.console
  ending : Option.Rel (SameEnd s.schedule.now t.schedule.now) s.ending? t.ending?

variable {even : Prop} {a b : BuildId} {s t : Session}

theorem ending?_of_rest (rest : s.active = none) : s.ending? = none := by
  rw [ending?, rest, Option.bind_none]

/-- Sessions at rest have nothing to be ended. -/
theorem alike_of_rest (rest : s.active = none) (rest' : t.active = none)
    (config : t.config = s.config) (dialect : t.dialect = s.dialect)
    (environment : t.environment = s.environment) (lastId : t.lastId = renumber a b s.lastId)
    (since : a ≤ s.lastId) (capture : Capture.Alike even s.capture s.console t.capture t.console) :
    Alike even a b s t := by
  refine ⟨config, dialect, environment, ?_, lastId, since, ?_, capture, ?_⟩
  · rw [rest, rest', Option.map_none]
  · intro build active
    rw [rest] at active
    cases active
  · rw [ending?_of_rest rest, ending?_of_rest rest']
    exact .none

/-- A start that is not refused, as one step. -/
theorem start_eq (free : s.active = none ∨ s.config.reentry = .replace) (located : Located)
    (request : BuildRequest) :
    s.start located request =
      match s.reset.capture.subscribe? s.reset.console with
      | none => (.error .consoleClosed, { s.reset with lastId := s.lastId + 1 })
      | some (capture, console) => (.ok (.accepted (s.lastId + 1)),
          { s with
            active := some (s.opened located request)
            capture := capture
            lastId := s.lastId + 1
            console := console
            events := s.events.publish (s.lastId + 1) .started
            environment := (s.patchFor located).2
            schedule := s.putOffAtStart }) := by
  unfold start
  split
  · rename_i active rejects
    rcases free with none_ | replaces
    · cases none_.symm.trans active
    · cases replaces.symm.trans rejects
  · unfold begin
    dsimp only
    cases subscribed : s.reset.capture.subscribe? s.reset.console with
    | none =>
      have undone : undo (s.patchFor located).2 (s.patchFor located).1.saved? =
          s.reset.environment := undo_patch _ _ _
      exact congrArg (fun environment =>
        (Except.error SessionError.consoleClosed,
          { s.reset with lastId := s.lastId + 1, environment := environment })) undone
    | some admitted =>
      obtain ⟨capture, console⟩ := admitted
      have watched : s.reset.config = s.config := rfl
      cases there : s.config.watchdogTimeout? with
      | none =>
        simp only [putOffAtStart, watched, there]
        rfl
      | some timeout =>
        simp only [putOffAtStart, watched, there]
        rfl

/-- A start that is refused changes nothing. -/
theorem start_of_busy {build : ActiveBuild} (active : s.active = some build)
    (rejects : s.config.reentry = .reject) (located : Located) (request : BuildRequest) :
    s.start located request = (.ok (.busy build.id), s) := by
  unfold start
  rw [active, rejects]

/-- The sessions differ in nothing that a start looks at. -/
structure StartsAlike (even : Prop) (a b : BuildId) (s t : Session) : Prop where
  config : t.config = s.config
  dialect : t.dialect = s.dialect
  environment : t.reset.environment = s.reset.environment
  lastId : t.lastId + 1 = renumber a b (s.lastId + 1)
  since : a ≤ s.lastId + 1
  capture : Capture.Alike even s.reset.capture s.reset.console t.reset.capture t.reset.console

theorem StartsAlike.opened (h : StartsAlike even a b s t) (located : Located)
    (request : BuildRequest) :
    t.opened located request = (s.opened located request).renumber a b := by
  simp only [Session.opened, patchFor, h.environment, h.config, h.lastId, ActiveBuild.renumber]

/-- What is published to one of two sessions that go on alike is published to the other. -/
structure NewsAlike (a b : BuildId) (s t : Session) (op : Operation) : Prop where
  same : t.news op = (s.news op).map (Prod.map (renumber a b) id)
  recent : ∀ n ∈ s.news op, a ≤ n.1

/-- What an operation does to two sessions that go on alike. -/
structure Follows (even : Prop) (a b : BuildId) (s t : Session) (op : Operation) : Prop where
  alike : Alike even a b (s.apply op).2 (t.apply op).2
  answer : op.Tells even → (t.apply op).1 = (s.apply op).1.renumber a b
  news : NewsAlike a b s t op

/-- An operation that publishes nothing. -/
theorem Follows.of_kept {op : Operation} {answer answer' : Answer} {u v : Session}
    (done : s.apply op = (answer, u)) (done' : t.apply op = (answer', v))
    (alike : Alike even a b u v)
    (kept : u.events = s.events) (kept' : v.events = t.events)
    (same : op.Tells even → answer' = answer.renumber a b) : Follows even a b s t op := by
  have news : s.news op = [] := by
    simp only [Session.news, done, kept, List.drop_length, List.map_nil]
  have news' : t.news op = [] := by
    simp only [Session.news, done', kept', List.drop_length, List.map_nil]
  refine ⟨?_, ?_, ?_, ?_⟩
  · rw [done, done']
    exact alike
  · rw [done, done']
    exact same
  · rw [news, news', List.map_nil]
  · rw [news]
    exact nofun

/-- An operation that publishes one event of one build. -/
theorem Follows.of_publish {op : Operation} {answer answer' : Answer} {u v : Session}
    (done : s.apply op = (answer, u)) (done' : t.apply op = (answer', v))
    (alike : Alike even a b u v)
    (booked : Booked s) (booked' : Booked t) {id : BuildId} (event : Event) (recent : a ≤ id)
    (told : u.events = s.events.publish id event)
    (told' : v.events = t.events.publish (BuildSupervisor.renumber a b id) event)
    (same : op.Tells even → answer' = answer.renumber a b) : Follows even a b s t op := by
  have news : s.news op = [(id, event)] := by
    simp [Session.news, done, told, booked.log_publish]
  have news' : t.news op = [(BuildSupervisor.renumber a b id, event)] := by
    simp [Session.news, done', told', booked'.log_publish]
  refine ⟨?_, ?_, ?_, ?_⟩
  · rw [done, done']
    exact alike
  · rw [done, done']
    exact same
  · rw [news, news']
    rfl
  · rw [news]
    intro n mem
    cases List.mem_singleton.mp mem
    exact recent

/-- What a start answers and leaves, as an operation. -/
theorem apply_start {located : Located} {request : BuildRequest}
    {outcome : Except SessionError StartOutcome} {u : Session}
    (h : s.start located request = (outcome, u)) :
    s.apply (.start located request) = (.started outcome, u) := by
  change (s.start located request).map Answer.started id = _
  rw [h]
  rfl

theorem apply_buildComplete {succeeded : Bool} {said : String} {yes : Bool} {u : Session}
    (h : s.onBuildComplete succeeded said = (yes, u)) :
    s.apply (.buildComplete succeeded said) = (.accepted yes, u) := by
  change (s.onBuildComplete succeeded said).map Answer.accepted id = _
  rw [h]
  rfl

theorem apply_advance {by_ : Duration} {u : Session} (h : (s.advance by_).2 = u) :
    s.apply (.advance by_) = (.counted (s.advance by_).1, u) := by
  rw [← h]
  rfl

/-- A start does the same to both sessions, and its end is equally far on both clocks. -/
theorem StartsAlike.start (h : StartsAlike even a b s t) (timed : Timed s) (timed' : Timed t)
    (free : s.active = none ∨ s.config.reentry = .replace)
    (free' : t.active = none ∨ t.config.reentry = .replace) {located : Located}
    {request : BuildRequest} (fits : Fits s (.start located request))
    (fits' : Fits t (.start located request)) :
    Follows even a b s t (.start located request) := by
  have started := s.start_eq free located request
  have started' := t.start_eq free' located request
  have rel := h.capture.subscribe?
  generalize s.reset.capture.subscribe? s.reset.console = admitted at rel started
  generalize t.reset.capture.subscribe? t.reset.console = admitted' at rel started'
  cases rel with
  | none =>
    refine .of_kept (apply_start started) (apply_start started') ?_ rfl rfl fun _ => rfl
    exact alike_of_rest rfl rfl h.config h.dialect h.environment h.lastId h.since h.capture
  | @some x y like =>
    obtain ⟨capture, console⟩ := x
    obtain ⟨capture', console'⟩ := y
    refine .of_publish (apply_start started) (apply_start started') ?_
      timed.prepared.booked timed'.prepared.booked .started h.since rfl ?_ fun _ => ?_
    · refine ⟨h.config, h.dialect, ?_, ?_, h.lastId, h.since, ?_, like, ?_⟩
      · simp only [patchFor, h.environment, h.config]
      · simp only [h.opened, Option.map_some]
      · intro build active
        cases active
        exact h.since
      · rw [ending?_armed timed.clocked rfl rfl, ending?_armed timed'.clocked rfl rfl, h.config]
        simp only [Fits, Operation.wait?, started] at fits
        simp only [Fits, Operation.wait?, started', h.config] at fits'
        cases watched : s.config.watchdogTimeout? with
        | none => exact .none
        | some timeout =>
          rw [watched] at fits fits'
          refine .some ⟨rfl, ?_⟩
          simp only [putOffAtStart, watched, h.config, Schedule.schedule, Duration.nanos_add]
          dsimp only at fits fits'
          omega
    · rw [← h.lastId]
    · simp only [Answer.renumber, h.lastId]

/-! ## Sessions that are alike already -/

namespace Alike

theorem state (h : Alike even a b s t) : t.state = s.state := by
  simp only [Session.state, h.active]
  cases s.active <;> rfl

theorem environment_reset (h : Alike even a b s t) : t.reset.environment = s.reset.environment := by
  simp only [Session.reset, h.environment, h.active]
  cases s.active <;> rfl

theorem capture_reset (h : Alike even a b s t) :
    Capture.Alike even s.reset.capture s.reset.console t.reset.capture t.reset.console :=
  h.capture.reset

theorem reset (h : Alike even a b s t) : Alike even a b s.reset t.reset :=
  alike_of_rest rfl rfl h.config h.dialect h.environment_reset h.lastId h.since h.capture_reset

/-- Whatever is read or written, alike by both. -/
theorem withCapture (h : Alike even a b s t) {capture capture' : Capture}
    {console console' : Console}
    (like : Capture.Alike even capture console capture' console') :
    Alike even a b { s with capture := capture, console := console }
      { t with capture := capture', console := console' } :=
  ⟨h.config, h.dialect, h.environment, h.active, h.lastId, h.since, h.recent, like, h.ending⟩

theorem startsAlike (h : Alike even a b s t) : StartsAlike even a b s t := by
  refine ⟨h.config, h.dialect, h.environment_reset, ?_, ?_, h.capture_reset⟩
  · rw [renumber_succ h.since, h.lastId]
  · exact Nat.le_succ_of_le h.since

/-- The build at hand ends with the same result, whatever is left of the tasks. -/
theorem conclude (h : Alike even a b s t) (build : ActiveBuild) (how : BuildEnd)
    (left left' : Schedule Deferred) :
    (t.conclude (build.renumber a b) how).1 = (s.conclude build how).1 ∧
      Alike even a b { (s.conclude build how).2 with schedule := left }
        { (t.conclude (build.renumber a b) how).2 with schedule := left' } := by
  obtain ⟨_, drained⟩ := h.capture.drain
  constructor
  · change resultOf t.config t.dialect (build.renumber a b) (t.capture.drain t.console).2.1.stdout
        (t.capture.drain t.console).2.1.stderr how.succeeded how.said (how.remark? t.config) =
      resultOf s.config s.dialect build (s.capture.drain s.console).2.1.stdout
        (s.capture.drain s.console).2.1.stderr how.succeeded how.said (how.remark? s.config)
    rw [h.config, h.dialect, drained.stdout, drained.stderr]
    rfl
  · refine alike_of_rest rfl rfl h.config h.dialect ?_ h.lastId h.since ?_
    · change undo t.environment build.saved = undo s.environment build.saved
      rw [h.environment]
    · have rested := drained.reset
      simp only [Session.conclude, finish]
      have same : shownWarning? (build.renumber a b) how.succeeded =
          shownWarning? build how.succeeded := rfl
      rw [same]
      cases shownWarning? build how.succeeded with
      | none => exact rested
      | some text => exact rested.send _

end Alike

theorem follows_start (h : Alike even a b s t) (timed : Timed s) (timed' : Timed t)
    {located : Located} {request : BuildRequest} (fits : Fits s (.start located request))
    (fits' : Fits t (.start located request)) : Follows even a b s t (.start located request) := by
  cases there : s.active with
  | none =>
    have there' : t.active = none := by rw [h.active, there, Option.map_none]
    exact h.startsAlike.start timed timed' (.inl there) (.inl there') fits fits'
  | some build =>
    cases policy : s.config.reentry with
    | replace =>
      have policy' : t.config.reentry = .replace := by rw [h.config, policy]
      exact h.startsAlike.start timed timed' (.inr policy) (.inr policy') fits fits'
    | reject =>
      have policy' : t.config.reentry = .reject := by rw [h.config, policy]
      have there' : t.active = some (build.renumber a b) := by
        rw [h.active, there, Option.map_some]
      have left := start_of_busy there policy located request
      have left' := start_of_busy there' policy' located request
      exact .of_kept (apply_start left) (apply_start left') h rfl rfl fun _ => rfl

theorem onBuildComplete_of_building {build : ActiveBuild} (active : s.active = some build)
    (phase : build.phase = .building) (succeeded : Bool) (said : String) :
    s.onBuildComplete succeeded said =
      (true, { s with active := some { build with phase := .completionPending } }.defer
        s.config.completionDelay (.finalize build.id succeeded said)) := by
  unfold onBuildComplete
  rw [active]
  dsimp only
  rw [phase]

theorem onBuildComplete_of_not_building (other : s.state ≠ .building) (succeeded : Bool)
    (said : String) : s.onBuildComplete succeeded said = (false, s) := by
  unfold onBuildComplete
  split
  · rfl
  · rename_i build active
    split
    · rfl
    · rename_i phase
      simp [Session.state, active, phase] at other

theorem follows_buildComplete (h : Alike even a b s t) (timed : Timed s) (timed' : Timed t)
    {succeeded : Bool} {said : String} (fits : Fits s (.buildComplete succeeded said))
    (fits' : Fits t (.buildComplete succeeded said)) :
    Follows even a b s t (.buildComplete succeeded said) := by
  by_cases building : s.state = .building
  · have building' : t.state = .building := h.state.trans building
    obtain ⟨build, active, phase⟩ : ∃ build, s.active = some build ∧ build.phase = .building := by
      unfold Session.state at building
      cases active : s.active with
      | none => simp [active] at building
      | some build => cases phase : build.phase <;> simp_all
    have active' : t.active = some (build.renumber a b) := by
      rw [h.active, active, Option.map_some]
    have left := onBuildComplete_of_building active phase succeeded said
    have left' := onBuildComplete_of_building active' phase succeeded said
    refine .of_kept (apply_buildComplete left) (apply_buildComplete left') ?_ rfl rfl
      fun _ => rfl
    refine ⟨h.config, h.dialect, h.environment, rfl, h.lastId, h.since, ?_, h.capture, ?_⟩
    · intro other there
      cases there
      exact h.recent build active
    · rw [ending?_reported timed.clocked active phase rfl rfl,
        ending?_reported timed'.clocked active' phase rfl rfl, h.config]
      refine .some ⟨rfl, ?_⟩
      simp only [Fits, Operation.wait?, building, building', h.config, if_true] at fits fits'
      simp only [defer, Schedule.schedule, Duration.nanos_add]
      omega
  · have other : t.state ≠ .building := by
      rw [h.state]
      exact building
    have left := onBuildComplete_of_not_building building succeeded said
    have left' := onBuildComplete_of_not_building other succeeded said
    exact .of_kept (apply_buildComplete left) (apply_buildComplete left') h rfl rfl fun _ => rfl

theorem follows_reset (h : Alike even a b s t) : Follows even a b s t .reset :=
  .of_kept rfl rfl h.reset rfl rfl fun _ => rfl

theorem follows_advance (h : Alike even a b s t) (timed : Timed s) (timed' : Timed t)
    {by_ : Duration}
    (fits : Fits s (.advance by_)) (fits' : Fits t (.advance by_)) :
    Follows even a b s t (.advance by_) := by
  have moved := moved_advance timed.prepared.plain timed.clocked.ordered by_
  have moved' := moved_advance timed'.prepared.plain timed'.clocked.ordered by_
  generalize left : (s.advance by_).2 = u at moved
  generalize left' : (t.advance by_).2 = v at moved'
  have ending := h.ending
  -- The clocks show different times, but both move by the same.
  have target : (s.schedule.now.add by_).nanos = s.schedule.now.nanos + by_.nanos := by
    simp only [Fits, Operation.wait?] at fits
    rw [Duration.nanos_add]
    omega
  have target' : (t.schedule.now.add by_).nanos = t.schedule.now.nanos + by_.nanos := by
    simp only [Fits, Operation.wait?] at fits'
    rw [Duration.nanos_add]
    omega
  cases moved with
  | concluded build due how rest remains active ends inTime =>
    rw [ends] at ending
    generalize ends' : t.ending? = other at ending
    cases ending with
    | @some x y far =>
      obtain ⟨due', how'⟩ := y
      obtain ⟨same, far⟩ := far
      dsimp only at same far
      cases moved' with
      | concluded build' due₂ how₂ rest' _ active' ends₂ _ =>
        cases ends'.symm.trans ends₂
        rw [h.active, active, Option.map_some] at active'
        cases active'
        rw [same] at left'
        obtain ⟨result, like⟩ := h.conclude build how rest rest'
        refine .of_publish (apply_advance left) (apply_advance left') like
          timed.prepared.booked timed'.prepared.booked (.completed (s.conclude build how).1)
          (h.recent build active) rfl ?_ nofun
        rw [← result]
        rfl
      | kept rest' remains' late _ =>
        have late := Duration.lt_def.mp (late _ _ ends')
        have inTime := Duration.le_def.mp inTime
        omega
  | kept rest remains late same =>
    cases moved' with
    | concluded build' due' how' rest' _ _ ends' inTime =>
      rw [ends'] at ending
      generalize ends : s.ending? = other at ending
      cases ending with
      | @some x y far =>
        obtain ⟨due, how⟩ := x
        have far := far.2
        dsimp only at far
        have late := Duration.lt_def.mp (late _ _ ends)
        have inTime := Duration.le_def.mp inTime
        omega
    | kept rest' remains' _ same' =>
      refine .of_kept (apply_advance left) (apply_advance left') ?_ rfl rfl nofun
      refine ⟨h.config, h.dialect, h.environment, h.active, h.lastId, h.since, h.recent, h.capture,
        ?_⟩
      rw [same, same']
      generalize s.ending? = x at ending
      generalize t.ending? = y at ending
      cases ending with
      | none => exact .none
      | some far =>
        refine .some ⟨far.1, ?_⟩
        have far := far.2
        simp only [remains.now, remains'.now, target, target']
        omega

/-- Operations that name no build keep two sessions alike. -/
theorem step_alike (h : Alike even a b s t) (timed : Timed s) (timed' : Timed t) {op : Operation}
    (anonymous : op.isAnonymous = true) (fits : Fits s op) (fits' : Fits t op) :
    Follows even a b s t op := by
  cases op with
  | start located request => exact follows_start h timed timed' fits fits'
  | outputChunk c =>
    refine .of_kept rfl rfl (h.withCapture (h.capture.append c)) rfl rfl fun _ => ?_
    exact congrArg Answer.accepted h.capture.isSubscribed
  | drainConsole =>
    obtain ⟨count, like⟩ := h.capture.drain
    exact .of_kept rfl rfl (h.withCapture like) rfl rfl fun _ => congrArg Answer.counted count
  | nextChunk =>
    obtain ⟨next, like⟩ := h.capture.next
    exact .of_kept rfl rfl (h.withCapture like) rfl rfl fun _ => congrArg Answer.next next
  | buildComplete succeeded said => exact follows_buildComplete h timed timed' fits fits'
  | finalize id succeeded said => cases anonymous
  | watchdog id => cases anonymous
  | advance by_ => exact follows_advance h timed timed' fits fits'
  | reset => exact follows_reset h
  | write c =>
    refine .of_kept rfl rfl (h.withCapture (h.capture.send c)) rfl rfl fun evenly => ?_
    change Answer.counted t.console.audience = .counted s.console.audience
    rw [Channel.audience, Channel.audience, h.capture.closed, h.capture.readers evenly]
  | closeConsole => exact .of_kept rfl rfl (h.withCapture h.capture.close) rfl rfl fun _ => rfl

end Session

end BuildSupervisor
