import BuildSupervisor.Proofs.Session.Restoration
import BuildSupervisor.Proofs.Session.Underway
/-!
# The result of a build

`BuildRun.result_eq_expected` says that the result of a build is the one that its history calls
for, however its output was read.  `exists_buildRun` says that every result a session ever
publishes is the result of such a history.
-/

namespace BuildSupervisor

namespace Session

/-- What a build under way is given as its result when its end was reported. -/
theorem finish_reported {build : ActiveBuild} {done : List Operation} {s : Session}
    (h : Underway build done s) (kept : s.capture.backlog s.console ≤ s.console.ring)
    (succeeded : Bool) (said : String) :
    (s.finish build succeeded said none).1 =
      expectedResult s.config s.dialect build.request build.warning (writtenIn done)
        (.reported succeeded said) := by
  rw [finish_gathered h.gathered kept]
  unfold resultOf expectedResult diagnosticsOf shownWarning?
  rcases succeeded <;> rcases build.request.showOutput <;> rcases build.warning <;> rfl

/-- What a build under way is given as its result when its time is over. -/
theorem finish_expired {build : ActiveBuild} {done : List Operation} {s : Session}
    (h : Underway build done s) (kept : s.capture.backlog s.console ≤ s.console.ring) :
    (s.finish build false "" (some (watchdogNote s.config))).1 =
      expectedResult s.config s.dialect build.request build.warning (writtenIn done)
        .expired := by
  rw [finish_gathered h.gathered kept]
  unfold resultOf expectedResult diagnosticsOf shownWarning?
  rcases build.request.showOutput <;> rcases build.warning <;> rfl

/-- An operation that publishes a result gives it to the build at hand. -/
theorem published_result {s : Session} (h : Prepared s) {op : Operation} {number : Nat}
    {id : BuildId} {result : BuildResult}
    (log : (s.apply op).2.events.log = s.events.log ++ [⟨number, id, .completed result⟩]) :
    ∃ task build, op.Does s task ∧ s.active = some build ∧ build.id = id ∧
      Ends s build task result := by
  have longer : completedIds (s.apply op).2.events.log = completedIds s.events.log ++ [id] := by
    rw [log, completedIds_concat_completed]
  have changed : (s.apply op).2.events.log ≠ s.events.log := by
    rw [log]
    simp
  cases mayEnd : op.mayEnd with
  | false =>
    rw [completedIds_of_not_mayEnd h.booked (effect_apply s op) mayEnd,
      List.self_eq_append_right] at longer
    cases longer
  | true =>
    obtain ⟨q, _, _, same | ⟨task, does, same⟩⟩ := settle_cases h.plain mayEnd
    · rw [same] at changed
      exact absurd rfl changed
    · rw [same] at log
      obtain ⟨build, result', active, number', event, ends⟩ := published_runDeferred log
      have event : Event.completed result = .completed result' := event
      cases event
      exact ⟨task, build, does, active, number'.symm, ends⟩

/-- An operation that tells of a result tells it of the build at hand, and nothing else. -/
theorem log_apply {s t : Session} {op : Operation} {answer : Answer} (h : Booked s)
    (effect : Effect s op answer t) {n : Notification} {result : BuildResult}
    (event : n.event = .completed result) (mem : n ∈ t.events.log) :
    n ∈ s.events.log ∨
      t.events.log = s.events.log ++ [n] ∧
        ∃ build, s.active = some build ∧ build.id = n.buildId := by
  cases effect with
  | kept _ _ _ books =>
    rw [books.events] at mem
    exact .inl mem
  | discarded books =>
    rw [books.events] at mem
    exact .inl mem
  | aborted _ _ books =>
    rw [books.events] at mem
    exact .inl mem
  | accepted _ _ books =>
    rw [books.events, h.log_publish] at mem
    rcases List.mem_append.mp mem with earlier | new
    · exact .inl earlier
    · rw [List.mem_singleton.mp new] at event
      cases event
  | reported _ _ _ _ _ books =>
    rw [books.events] at mem
    exact .inl mem
  | ended build result' active _ _ _ books =>
    rw [books.events, Session.ended, h.log_publish] at mem ⊢
    rcases List.mem_append.mp mem with earlier | new
    · exact .inl earlier
    · rw [List.mem_singleton.mp new]
      exact .inr ⟨rfl, build, active, rfl⟩

/-- The task that gives a build its result is the one that its history calls for. -/
theorem endOf_reported {build : ActiveBuild} {middle : List Operation} {s : Session}
    {last : Operation} {succeeded : Bool} {said : String} (h : Underway build middle s)
    (does : last.Does s (.finalize build.id succeeded said)) :
    endOf middle last = .reported succeeded said := by
  cases last with
  | finalize id succeeded' said' =>
    cases does
    rfl
  | watchdog id => cases does
  | advance by_ =>
    have first := h.due succeeded said does
    simp only [endOf, first]
  | _ => exact does.elim

theorem endOf_expired {build : ActiveBuild} {middle : List Operation} {s : Session}
    {last : Operation} {id : BuildId} (h : Underway build middle s) {now : ActiveBuild}
    (active : s.active = some now) (phase : now.phase = .building)
    (does : last.Does s (.watchdog id)) : endOf middle last = .expired := by
  cases last with
  | finalize id' succeeded said => cases does
  | watchdog id' => rfl
  | advance by_ =>
    have unheard : firstReport? middle = none := by
      rw [h.active] at active
      cases active
      cases first : firstReport? middle with
      | none => rfl
      | some report =>
        rw [first] at phase
        cases phase
    simp only [endOf, unheard]
  | _ => exact does.elim

end Session

/-- A run in which a build is asked for, something is done meanwhile, and a last operation
    follows. -/
structure BuildRun where
  config : Config
  dialect : Dialect
  environment : Environment
  console : Console
  before : List Operation
  located : Located
  request : BuildRequest
  middle : List Operation
  last : Operation

namespace BuildRun

/-- The session that is asked for the build. -/
def asked (r : BuildRun) : Session :=
  (Session.new r.config r.dialect r.environment r.console).run r.before

/-- The session right after that. -/
def started (r : BuildRun) : Session :=
  (r.asked.start r.located r.request).2

/-- The session before the last operation. -/
def awaiting (r : BuildRun) : Session :=
  r.started.run r.middle

theorem prepared_asked (r : BuildRun) : r.asked.Prepared :=
  Session.prepared_run (Session.prepared_new _ _ _ _) r.before

/-- The settings of a session are those it was made with. -/
theorem settings_run (s : Session) (ops : List Operation) :
    (s.run ops).config = s.config ∧ (s.run ops).dialect = s.dialect :=
  Session.run_induction (P := fun _ t => t.config = s.config ∧ t.dialect = s.dialect) ⟨rfl, rfl⟩
    (fun _ op t _ ih => by
      obtain ⟨config, dialect⟩ := (Session.effect_apply t op).settings
      exact ⟨config.trans ih.1, dialect.trans ih.2⟩)
    ops

theorem settings_awaiting (r : BuildRun) :
    r.awaiting.config = r.config ∧ r.awaiting.dialect = r.dialect := by
  have run : r.awaiting = (Session.new r.config r.dialect r.environment r.console).run
      (r.before ++ .start r.located r.request :: r.middle) := by
    rw [Session.run_append]
    rfl
  rw [run]
  exact settings_run _ _

/-- The result of a build is the one that its history calls for: if the session took no chunk but
    from the console, and never fell so far behind that one was lost, then all that was written
    between the start of the build and its end is in the result, in order and once. -/
theorem result_eq_expected (r : BuildRun) {number : Nat} {id : BuildId} {result : BuildResult}
    (accepted : (r.asked.start r.located r.request).1 = .ok (.accepted id))
    (heard : FromConsole r.started r.middle) (kept : KeepsUp r.started r.middle)
    (published : (r.awaiting.apply r.last).2.events.log =
      r.awaiting.events.log ++ [⟨number, id, .completed result⟩]) :
    result = expectedResult r.config r.dialect r.request r.started.toolchainWarning?
      (writtenIn r.middle) (endOf r.middle r.last) := by
  obtain ⟨fresh, active, _⟩ := Session.start_accepted accepted
  have start := Session.underway_start r.prepared_asked accepted
  have prepared : r.awaiting.Prepared := Session.prepared_run start.prepared r.middle
  obtain ⟨task, now, does, current, rfl, ends⟩ := Session.published_result prepared published
  -- The build that gets the result is the one that was accepted, so it was there all the time.
  have there : r.awaiting.currentBuild? = some (r.asked.opened r.located r.request).id := by
    rw [Session.currentBuild?, current, Option.map_some, fresh]
    rfl
  have underway := start.run heard kept there
  rw [List.nil_append] at underway
  have upToDate := kept.last
  have warning : r.started.toolchainWarning? = (r.asked.opened r.located r.request).warning := by
    rw [Session.toolchainWarning?, started, active]
    rfl
  obtain ⟨config, dialect⟩ := r.settings_awaiting
  have same := current.symm.trans underway.active
  rw [warning, ← config, ← dialect]
  cases ends with
  | reported succeeded said phase =>
    rw [Option.some.inj same] at does ⊢
    rw [Session.endOf_reported underway does]
    have finished := Session.finish_reported underway upToDate succeeded said
    exact finished
  | expired phase =>
    rw [Session.endOf_expired underway current phase does, Option.some.inj same]
    have finished := Session.finish_expired underway upToDate
    exact finished

/-- A tool fails, its toolchain is missing, and the last of what it writes comes after its end. -/
def failing : BuildRun where
  config := Config.default none
  dialect := .gcc
  environment := Environment.empty
  console := Channel.new consoleCapacity
  before := []
  located := .error ⟨"gcc", "/opt/gcc/bin"⟩
  request := ⟨Path.ofText "/proj/x.c", false, false⟩
  middle :=
    [.write ⟨.normal, "compiling\n"⟩, .nextChunk, .outputChunk ⟨.normal, "compiling\n"⟩,
      .write ⟨.error, "x.c:3:1: "⟩, .buildComplete false "", .drainConsole,
      .write ⟨.error, "error: bad\n"⟩]
  last := .advance (Duration.ofMillis 200)

/-- What is shown of it. -/
def failure : BuildResult :=
  ⟨"/proj/x.c",
    [⟨.normal, "compiling\n"⟩, ⟨.error, "x.c:3:1: error: bad\n"⟩,
      ⟨.error, "could not locate the gcc toolchain (searched: /opt/gcc/bin)\n"⟩],
    [⟨"/proj/x.c", 3, 1, .error, "bad"⟩]⟩

theorem failure_eq_expected :
    failure =
      expectedResult failing.config failing.dialect failing.request
        failing.started.toolchainWarning? (writtenIn failing.middle)
        (endOf failing.middle failing.last) := by
  have accepted : (failing.asked.start failing.located failing.request).1 = .ok (.accepted 1) := rfl
  have heard : FromConsole failing.started failing.middle := by
    refine .other (by simp) (by simp) (.heard (by decide +kernel) ?_)
    refine .other (by simp) (by simp) (.other (by simp) (by simp) ?_)
    exact .other (by simp) (by simp) (.other (by simp) (by simp) (.done _))
  have kept : KeepsUp failing.started failing.middle := by decide +kernel
  have published : (failing.awaiting.apply failing.last).2.events.log =
      failing.awaiting.events.log ++ [⟨2, 1, .completed failure⟩] := by
    decide +kernel
  exact failing.result_eq_expected accepted heard kept published

/-- Every result that a session publishes is that of a build which was accepted in its run. -/
theorem exists_buildRun (config : Config) (dialect : Dialect) (environment : Environment)
    (console : Console) (ops : List Operation) {id : BuildId} {result : BuildResult}
    {n : Notification} (told : n.buildId = id) (event : n.event = .completed result)
    (mem : n ∈ ((Session.new config dialect environment console).run ops).events.log) :
    ∃ r : BuildRun,
      Session.new r.config r.dialect r.environment r.console =
        Session.new config dialect environment console ∧
      (∃ after, ops = r.before ++ .start r.located r.request :: r.middle ++ r.last :: after) ∧
      (r.asked.start r.located r.request).1 = .ok (.accepted id) ∧
      (r.awaiting.apply r.last).2.events.log = r.awaiting.events.log ++ [n] := by
  generalize hs : Session.new config dialect environment console = first at mem
  have rest : first.active = none := by rw [← hs]; rfl
  have prepared : first.Prepared := by
    rw [← hs]
    exact Session.prepared_new config dialect environment console
  -- Of the operations so far, the last one may have published the result.
  induction ops using List.reverseRecOn with
  | nil =>
    rw [← hs] at mem
    cases mem
  | append_singleton ops op ih =>
    by_cases earlier : n ∈ (first.run ops).events.log
    · obtain ⟨r, same, ⟨after, place⟩, found⟩ := ih earlier
      refine ⟨r, same, ⟨after ++ [op], ?_⟩, found⟩
      rw [place, List.append_assoc, List.cons_append]
    · have booked := (Session.prepared_run prepared ops).booked
      have split : first.run (ops ++ [op]) = ((first.run ops).apply op).2 := by
        rw [Session.run_append]
        rfl
      rw [split] at mem
      rcases Session.log_apply booked (Session.effect_apply _ op) event mem with old |
        ⟨published, build, active, same⟩
      · exact absurd old earlier
      · obtain ⟨located, ⟨before, request, middle, place, accepted⟩, _⟩ :=
          (Session.restorable_run rest ops).patched build active
        have awaiting : ((first.run before).start located request).2.run middle =
            first.run ops := by
          rw [place, Session.run_append]
          rfl
        refine ⟨⟨config, dialect, environment, console, before, located, request, middle, op⟩,
          hs, ⟨[], ?_⟩, ?_, ?_⟩
        · rw [place]
        · rw [← told, ← same, asked, hs]
          exact accepted
        · rw [BuildRun.awaiting, started, asked, hs, awaiting]
          exact published

end BuildRun

end BuildSupervisor
