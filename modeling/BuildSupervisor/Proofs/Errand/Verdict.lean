import BuildSupervisor.CommandLine.Run
import BuildSupervisor.Proofs.Crew.Scope
import BuildSupervisor.Proofs.Errand.Progress
/-!
# Whether invoker and service agree

The service ends a build with the flag of the task by which it does so; the invoker tells how the
tool ended.  `Errand.agrees_iff` says when the two differ: the watchdog has ended the build, and the
tool goes on and succeeds all the same.
-/

namespace BuildSupervisor

namespace InvokerPhase

/-- What an invoker will say of a tool that has been launched. -/
def verdict? : InvokerPhase → Option Bool
  | .running _ tool => some tool.status.succeeded
  | .reporting _ ended => some ended.succeeded
  | .waiting _ ended => some ended.succeeded
  | .over (.ok (.finished report)) => some report.succeeded
  | _ => none

end InvokerPhase

/-- Once the tool has been launched, only an error keeps the invoker from telling how it ended. -/
theorem Invoker.verdict?_step {i j : Invoker} {first : OutputKind} {v w : Service} {b : Bool}
    (verdict : i.phase.verdict? = some b) (step : i.step? first v = some (j, w)) :
    j.phase.verdict? = some b ∨ ∃ failure, j.phase = .over (.error failure) := by
  obtain ⟨command, launch, ticket, listener, phase⟩ := i
  cases phase with
  | asking => cases verdict
  | running id tool =>
    have step : readTool _ first id tool v = (j, w) := Option.some.inj step
    unfold readTool at step
    split at step
    · rename_i c next read
      cases step
      rcases RunningTool.read?_cases read with read | read
      · obtain ⟨line, rest, _, _, rfl⟩ := RunningTool.readStdout?_eq_some read
        exact .inl verdict
      · obtain ⟨line, rest, _, _, rfl⟩ := RunningTool.readStderr?_eq_some read
        exact .inl verdict
    · cases step
      exact .inl verdict
  | reporting id ended =>
    have step : report _ id ended v = (j, w) := Option.some.inj step
    unfold report at step
    split at step
    · cases step
      exact .inl verdict
    · cases step
      exact .inr ⟨_, rfl⟩
  | waiting id ended =>
    have step : takeResult? _ id ended v = some (j, w) := step
    unfold takeResult? at step
    split at step
    · cases step
    · rename_i n cursor _
      obtain ⟨outcome, told, same⟩ := Option.map_eq_some_iff.mp step
      cases same
      unfold outcomeOf at told
      split at told
      · cases told
        exact .inl verdict
      · cases told
    · cases step
      exact .inr ⟨_, rfl⟩
  | _ => cases step

/-- The program ends with 0 exactly if the invoker tells of a success. -/
theorem CommandLine.exitCode_ofOutcome (o : Options) (told : String) (report : Report) :
    (ofOutcome o told (.ok (.finished report))).exitCode = 0 ↔ report.succeeded = true := by
  cases succeeded : report.succeeded <;> simp [ofOutcome, succeeded]

namespace Errand

variable {e : Errand} {lossless : Prop} {stage stage' : Stage} {phase phase' : InvokerPhase}
  {chunks chunks' : List Chunk} {c : Crew} {t : Turn}

/-- The invokers are the same after a turn, or it was the turn of one of them. -/
theorem invokers_turn (own : t.isOwn = true) :
    (c.turn t).invokers = c.invokers ∨
      ∃ first i j w, t = .proceed 0 first ∧ c.invokers[0]? = some i ∧
        i.step? first c.service = some (j, w) ∧ (c.turn t).invokers = c.invokers.set 0 j := by
  rcases c.turn_cases t with same | moved
  · rw [same]
    exact .inl rfl
  · generalize c.turn t = d at moved ⊢
    cases t with
    | serve =>
      obtain ⟨w, _, rfl⟩ := Option.map_eq_some_iff.mp moved
      exact .inl rfl
    | arrive target =>
      obtain ⟨w, _, rfl⟩ := Option.map_eq_some_iff.mp moved
      exact .inl rfl
    | elapse by_ =>
      simp only [Crew.turn?, Crew.elapse?] at moved
      split at moved
      · cases moved
      · rw [← Option.some.inj moved]
        exact .inl rfl
    | proceed index first =>
      have first_ : index = 0 := of_decide_eq_true own
      subst first_
      obtain ⟨i, there, moved⟩ := Option.bind_eq_some_iff.mp moved
      obtain ⟨⟨j, w⟩, step, rfl⟩ := Option.map_eq_some_iff.mp moved
      exact .inr ⟨first, i, j, w, rfl, there, step, rfl⟩
    | _ => cases own

/-- The invoker of an errand that is over has come back with a report. -/
theorem Attends.not_failure {inbox : List (Ticket × Command)}
    (h : Attends e stage phase inbox chunks) (failure : InvokeError) :
    phase ≠ .over (.error failure) := by
  rintro rfl
  cases h with
  | building duty _ => cases duty
  | expired duty _ => cases duty

theorem verdict?_turn (h : At e lossless stage phase chunks c) (own : t.isOwn = true) {b : Bool}
    (verdict : phase.verdict? = some b) (there : At e lossless stage' phase' chunks' (c.turn t)) :
    phase'.verdict? = some b := by
  obtain ⟨_, invokers, _⟩ := h.invoker
  obtain ⟨_, invokers', _⟩ := there.invoker
  rcases invokers_turn (c := c) own with same | ⟨first, i, j, w, rfl, who, step, set⟩
  · rw [same, invokers] at invokers'
    cases invokers'
    exact verdict
  · rw [set, invokers] at invokers'
    rw [invokers] at who
    cases who
    obtain rfl : j = _ := (List.cons.inj invokers').1
    rcases Invoker.verdict?_step verdict step with told | ⟨failure, failed⟩
    · exact told
    · exact absurd failed (there.attends.not_failure failure)

/-- The invoker launches the tool in the environment of the stage. -/
theorem at_launch (h : At e lossless stage .asking chunks c) (taken : stage ≠ .asked)
    (first : OutputKind) :
    ∃ phase chunks, At e lossless stage phase chunks (c.turn (.proceed 0 first)) ∧
      phase.owesReport = true ∧
      phase.verdict? = some (e.toolEnd (stage.environment e)).succeeded := by
  obtain ⟨phase, chunks, there⟩ := at_proceed h first
  refine ⟨phase, chunks, there, ?_⟩
  obtain ⟨listener, invokers, _⟩ := h.invoker
  obtain ⟨_, invokers', _⟩ := there.invoker
  have step := step?_asking h.serves taken listener first
  have who : c.invokers[0]? = some (e.invoker listener .asking) := by
    rw [invokers]
    rfl
  rw [Crew.turn_proceed 0 first who step, invokers] at invokers'
  have same := (List.cons.inj invokers').1
  dsimp only [invoker, Invoker.startTool] at same
  rw [h.serves.tends.environment] at same
  unfold toolEnd
  cases launched : e.launch (stage.environment e) with
  | ok run =>
    rw [launched] at same
    cases same
    exact ⟨rfl, rfl⟩
  | error failure =>
    rw [launched] at same
    cases same
    exact ⟨rfl, rfl⟩

/-- Where nothing has arrived, no build is ended. -/
theorem ending?_of_arrived (waits : c.service.arrived = []) : c.ending? .serve = none := by
  have nothing : c.service.dueTask? = none := by simp [Service.dueTask?, waits]
  rw [Crew.ending?, nothing, ite_self]

/-- Only the clock makes a task arrive. -/
theorem arrived_turn_serve (waits : c.service.arrived = []) :
    (c.turn .serve).service.arrived = [] := by
  rcases c.turn_serve_cases with same | ⟨w, step, moved⟩
  · rw [same]
    exact waits
  · rw [moved]
    have cases_ := c.service.step_cases
    rw [step] at cases_
    cases cases_ with
    | heard _ _ looked => exact looked.arrived.trans waits
    | did _ _ arrived _ => cases waits.symm.trans arrived
    | @took u _ command _ _ _ _ _ looked =>
      cases command with
      | shutdown => rfl
      | _ => exact looked.arrived.trans waits
    | ended _ _ _ => rfl

/-! ## Runs in which the watchdog ends the build -/

/-- A run of the errand and what it comes to. -/
structure Comes (e : Errand) (stage : Stage) (phase : InvokerPhase) (chunks : List Chunk)
    (turns : List Turn) : Prop where
  own : ∀ t ∈ turns, t.isOwn = true
  place : At e False stage phase chunks (e.after turns)
  endings : stage.endings e = e.endings turns

theorem Comes.concat {turns : List Turn} (h : Comes e stage phase chunks turns)
    (own : t.isOwn = true) (there : At e False stage' phase' chunks' ((e.after turns).turn t))
    (endings : stage'.endings e = stage.endings e ++ ((e.after turns).ending? t).toList) :
    Comes e stage' phase' chunks' (turns ++ [t]) := by
  refine ⟨?_, ?_, ?_⟩
  · intro other mem
    rcases List.mem_append.mp mem with old | new
    · exact h.own other old
    · rw [List.mem_singleton.mp new]
      exact own
  · rw [Errand.after, Crew.run_concat]
    exact there
  · rw [endings, h.endings, Errand.endings, Errand.endings, Crew.endings_concat]
    rfl

/-- The invoker has come to a phase, wherever the service is. -/
def Pauses (e : Errand) (phase : InvokerPhase) (chunks : List Chunk) (turns : List Turn) : Prop :=
  ∃ stage, Comes e stage phase chunks turns

theorem Pauses.own {turns : List Turn} (h : e.Pauses phase chunks turns) :
    ∀ t ∈ turns, t.isOwn = true := by
  obtain ⟨_, comes⟩ := h
  exact comes.own

/-- The service and the clock leave the invoker alone. -/
theorem Pauses.concat {turns : List Turn} (h : e.Pauses phase chunks turns)
    (other : t.actor? = some .service ∨ t.actor? = some .clock) :
    e.Pauses phase chunks (turns ++ [t]) := by
  obtain ⟨stage, h⟩ := h
  cases t with
  | serve =>
    obtain ⟨next, there, endings⟩ := at_serve h.place nofun
    exact ⟨next, h.concat rfl there endings⟩
  | arrive target =>
    exact ⟨stage, h.concat rfl (at_arrive h.place target) (List.append_nil _).symm⟩
  | proceed index first =>
    cases index <;> rcases other with actor | actor <;> cases actor
  | _ => rcases other with actor | actor <;> cases actor

/-- If the invoker does nothing for long enough, the build expires. -/
theorem exists_expired {turns : List Turn} (h : Comes e stage phase chunks turns)
    (watched : e.session.config.watchdogTimeout? ≠ none) (owes : phase.owesReport = true) :
    ∃ more result, Comes e (.expired result) phase chunks (turns ++ more) := by
  obtain ⟨more, ⟨next, there⟩, stuck⟩ := e.exists_stuck (I := e.Pauses phase chunks)
    (P := fun t => t.actor? = some .service ∨ t.actor? = some .clock) (fun _ h => h.own)
    (fun _ _ h other => h.concat other) turns ⟨stage, h⟩
  have service : ¬ (e.after (turns ++ more)).CanAct .service := by
    rintro ⟨t, actor, possible⟩
    exact stuck t (.inl actor) ⟨by rw [actor]; rfl, possible⟩
  have clock : ¬ (e.after (turns ++ more)).CanAct .clock := by
    rintro ⟨t, actor, possible⟩
    exact stuck t (.inr actor) ⟨by rw [actor]; rfl, possible⟩
  -- Nothing is put off any more, so the watchdog has been at the build if it was taken up at all.
  have serves := there.place.serves
  have nothing := putOff_of_not_canAct serves service clock
  have attends := there.place.attends
  rw [(quiet_of_not_canAct serves service).2] at attends
  refine ⟨more, ?_⟩
  cases attends with
  | building _ _ =>
    obtain ⟨timeout, set⟩ := Option.ne_none_iff_exists'.mp watched
    have due := serves.due (.watchdog e.id) (by rw [Stage.last?, set]; rfl)
    rw [nothing] at due
    cases due
  | expired _ _ => exact ⟨_, there⟩
  | reported _ => cases owes
  | finished _ => cases owes
  | failed _ _ => cases owes
  | ended => cases owes

/-- The watchdog has ended the build, of which the invoker will tell `b`. -/
def Overruled (e : Errand) (b : Bool) (turns : List Turn) : Prop :=
  ∃ result phase chunks, Comes e (.expired result) phase chunks turns ∧ phase.verdict? = some b

theorem Overruled.own {turns : List Turn} {b : Bool} (h : e.Overruled b turns) :
    ∀ t ∈ turns, t.isOwn = true := by
  obtain ⟨_, _, _, comes, _⟩ := h
  exact comes.own

/-- Nobody changes their mind. -/
theorem Overruled.concat {turns : List Turn} {b : Bool} (h : e.Overruled b turns)
    (own : t.isOwn = true) : e.Overruled b (turns ++ [t]) := by
  obtain ⟨result, phase, chunks, comes, verdict⟩ := h
  obtain ⟨next, phase', chunks', there, endings⟩ := at_turn comes.place own nofun
  have goesOn := comes.concat own there endings
  cases next with
  | expired result' =>
    exact ⟨result', phase', chunks', goesOn, verdict?_turn comes.place own verdict there⟩
  | _ => cases endings

/-- The invoker comes back with what it makes of the tool. -/
theorem Overruled.exists_told {turns : List Turn} {b : Bool} (h : e.Overruled b turns) :
    ∃ more report, (∀ t ∈ turns ++ more, t.isOwn = true) ∧
      e.outcome? (turns ++ more) = some (.ok (.finished report)) ∧ report.succeeded = b ∧
      e.endings (turns ++ more) = [.watchdog report.buildId] := by
  obtain ⟨more, ⟨result, phase, chunks, comes, verdict⟩, stuck⟩ := e.exists_stuck
    (I := e.Overruled b) (P := fun t => t.isOwn = true) (fun _ h => h.own)
    (fun _ _ h own => h.concat own) turns h
  have outcome : e.outcome? (turns ++ more) = _ := comes.place.outcome?
  have endings := comes.endings.symm
  by_cases ended : ∃ outcome, phase = .over outcome
  · obtain ⟨_, rfl⟩ := ended
    cases comes.place.attends with
    | expired duty _ => cases duty
    | failed _ _ => exact ⟨more, _, comes.own, outcome, Option.some.inj verdict, endings⟩
  · obtain ⟨a, t, actor, possible⟩ :=
      exists_canAct comes.place fun outcome same => ended ⟨outcome, same⟩
    exact absurd ⟨by rw [actor]; rfl, possible⟩ (stuck t (Turn.isOwn_of_actor? actor))

theorem comes_start (e : Errand) : Comes e .asked .asking [] [] :=
  ⟨nofun, e.at_start False, rfl⟩

/-- The build may expire before the tool is launched. -/
theorem exists_overruled_late (watched : e.session.config.watchdogTimeout? ≠ none) :
    ∃ turns, e.Overruled (e.toolEnd e.session.reset.environment).succeeded turns := by
  obtain ⟨turns, result, expired⟩ := exists_expired e.comes_start watched rfl
  obtain ⟨phase, chunks, there, _, verdict⟩ := at_launch expired.place nofun .normal
  exact ⟨turns ++ [.proceed 0 .normal], result, phase, chunks,
    expired.concat rfl there (List.append_nil _).symm, verdict⟩

/-- The invoker waits for the reply, and nothing that was put off has arrived. -/
def Early (e : Errand) (turns : List Turn) : Prop :=
  ∃ stage, Comes e stage .asking [] turns ∧ stage.endings e = [] ∧
    (e.after turns).service.arrived = []

theorem Early.own {turns : List Turn} (h : e.Early turns) : ∀ t ∈ turns, t.isOwn = true := by
  obtain ⟨_, comes, _⟩ := h
  exact comes.own

theorem Early.serve {turns : List Turn} (h : e.Early turns) : e.Early (turns ++ [.serve]) := by
  obtain ⟨stage, comes, unended, waits⟩ := h
  obtain ⟨next, there, endings⟩ := at_serve comes.place nofun
  have nothing : (e.after turns).ending? .serve = none := ending?_of_arrived waits
  refine ⟨next, comes.concat rfl there endings, ?_, ?_⟩
  · rw [endings, unended, nothing]
    rfl
  · rw [Errand.after, Crew.run_concat]
    exact arrived_turn_serve waits

/-- The service takes the build up, if it is given time. -/
theorem exists_building (e : Errand) : ∃ turns, Comes e .building .asking [] turns := by
  have early : e.Early [] := by
    refine ⟨.asked, e.comes_start, rfl, ?_⟩
    rw [Errand.after, Crew.run, start_eq]
    rfl
  obtain ⟨turns, ⟨stage, comes, unended, _⟩, stuck⟩ := e.exists_stuck (I := e.Early)
    (P := fun t => t = .serve) (fun _ h => h.own) (fun _ _ h serve => serve ▸ h.serve) [] early
  rw [List.nil_append] at comes stuck
  have service : ¬ (e.after turns).CanAct .service := by
    rintro ⟨t, actor, possible⟩
    obtain rfl := Turn.eq_serve_of_actor? actor
    exact stuck _ rfl ⟨rfl, possible⟩
  -- A service that rests has no command left, and so has heard of the build.
  have attends := comes.place.attends
  rw [(quiet_of_not_canAct comes.place.serves service).2] at attends
  refine ⟨turns, ?_⟩
  cases attends with
  | building _ _ => exact comes
  | expired _ _ => cases unended

/-- The build may expire after the tool was launched. -/
theorem exists_overruled_early (watched : e.session.config.watchdogTimeout? ≠ none) :
    ∃ turns, e.Overruled (e.toolEnd e.patched).succeeded turns := by
  obtain ⟨turns, building⟩ := e.exists_building
  obtain ⟨phase, chunks, there, owes, verdict⟩ := at_launch building.place nofun .normal
  obtain ⟨more, result, expired⟩ := exists_expired
    (building.concat rfl there (List.append_nil _).symm) watched owes
  exact ⟨_, result, phase, chunks, expired, verdict⟩

/-! ## When the verdicts agree -/

/-- The program says of the build what the service has said, and ends as the service did. -/
def Agrees (e : Errand) (turns : List Turn) : Prop :=
  ∀ report, e.outcome? turns = some (.ok (.finished report)) →
    ∃ task, e.endings turns = [task] ∧ task.buildId = report.buildId ∧
      report.succeeded = task.succeeds ∧
      ∀ options told,
        (CommandLine.ofOutcome options told (.ok (.finished report))).exitCode = 0 ↔
          task.succeeds = true

/-- By what a build is ended of which the invoker has a report. -/
theorem ended_of_finished {turns : List Turn} (own : ∀ t ∈ turns, t.isOwn = true) {report : Report}
    (finished : e.outcome? turns = some (.ok (.finished report))) :
    (e.endings turns = [.watchdog report.buildId] ∧ e.session.config.watchdogTimeout? ≠ none ∧
      (report.succeeded = (e.toolEnd e.patched).succeeded ∨
        report.succeeded = (e.toolEnd e.session.reset.environment).succeeded)) ∨
    ∃ said, e.endings turns = [.finalize report.buildId report.succeeded said] := by
  obtain ⟨stage, phase, chunks, there, endings⟩ := e.at_run own
  have outcome : e.outcome? turns = _ := there.outcome?
  rw [finished] at outcome
  have sound := there.serves.tends.sound
  have attends := there.attends
  generalize (e.after turns).service.inbox = inbox at attends
  cases attends with
  | failed _ place =>
    cases outcome
    refine .inl ⟨endings.symm, sound, ?_⟩
    rcases place with rfl | rfl
    · exact .inl rfl
    · exact .inr rfl
  | ended =>
    cases outcome
    exact .inr ⟨_, endings.symm⟩
  | asked => cases outcome
  | building duty _ => cases duty <;> cases outcome
  | expired duty _ => cases duty <;> cases outcome
  | reported _ => cases outcome
  | finished _ => cases outcome

/-- The verdicts differ in a run exactly if the watchdog has ended the build and the tool has
    succeeded. -/
theorem agrees_iff_of_own {turns : List Turn} (own : ∀ t ∈ turns, t.isOwn = true) :
    e.Agrees turns ↔
      ¬ ∃ report, e.outcome? turns = some (.ok (.finished report)) ∧
        report.succeeded = true ∧ e.endings turns = [.watchdog report.buildId] := by
  constructor
  · rintro agrees ⟨report, finished, succeeded, endings⟩
    obtain ⟨task, there, _, same, _⟩ := agrees report finished
    rw [endings] at there
    cases there
    rw [succeeded] at same
    cases same
  · intro never report finished
    have agree (task : Deferred) (endings : e.endings turns = [task])
        (id : task.buildId = report.buildId) (same : report.succeeded = task.succeeds) :
        ∃ task, e.endings turns = [task] ∧ task.buildId = report.buildId ∧
          report.succeeded = task.succeeds ∧ ∀ options told,
            (CommandLine.ofOutcome options told (.ok (.finished report))).exitCode = 0 ↔
              task.succeeds = true := by
      refine ⟨task, endings, id, same, fun options told => ?_⟩
      rw [← same]
      exact CommandLine.exitCode_ofOutcome options told report
    rcases ended_of_finished own finished with ⟨endings, _, _⟩ | ⟨said, endings⟩
    · refine agree _ endings rfl (Bool.eq_false_iff.mpr fun succeeded => ?_)
      exact never ⟨report, finished, succeeded, endings⟩
    · exact agree _ endings rfl rfl

/-- A tool that succeeds, and has a watchdog over it, may be told of as it should not. -/
theorem exists_not_agrees (watched : e.session.config.watchdogTimeout? ≠ none)
    (succeeds : (e.toolEnd e.patched).succeeded = true ∨
      (e.toolEnd e.session.reset.environment).succeeded = true) :
    ∃ turns, (∀ t ∈ turns, t.isOwn = true) ∧ ¬ e.Agrees turns := by
  have overruled : ∃ turns, e.Overruled true turns := by
    rcases succeeds with early | late
    · rw [← early]
      exact exists_overruled_early watched
    · rw [← late]
      exact exists_overruled_late watched
  obtain ⟨turns, overruled⟩ := overruled
  obtain ⟨more, report, own, finished, succeeded, endings⟩ := overruled.exists_told
  refine ⟨turns ++ more, own, fun agrees => ?_⟩
  exact (agrees_iff_of_own own).mp agrees ⟨report, finished, succeeded, endings⟩

/-- Whenever the invoker comes back with a report, it says of the build what the service has said,
    unless the watchdog has ended the build and the tool has succeeded.  That cannot happen exactly
    if there is no watchdog, or the tool fails wherever it is launched. -/
theorem agrees_iff (e : Errand) :
    (∀ turns, (∀ t ∈ turns, t.isOwn = true) →
      (e.Agrees turns ↔
        ¬ ∃ report, e.outcome? turns = some (.ok (.finished report)) ∧
          report.succeeded = true ∧ e.endings turns = [.watchdog report.buildId])) ∧
    ((∀ turns, (∀ t ∈ turns, t.isOwn = true) → e.Agrees turns) ↔
      e.session.config.watchdogTimeout? = none ∨
        (e.toolEnd e.patched).succeeded = false ∧
          (e.toolEnd e.session.reset.environment).succeeded = false) := by
  refine ⟨fun _ own => agrees_iff_of_own own, ?_, ?_⟩
  · intro always
    by_contra may
    obtain ⟨unwatched, fails⟩ := not_or.mp may
    have succeeds : (e.toolEnd e.patched).succeeded = true ∨
        (e.toolEnd e.session.reset.environment).succeeded = true := by
      simpa [or_iff_not_imp_left] using fails
    obtain ⟨turns, own, differs⟩ := exists_not_agrees unwatched succeeds
    exact differs (always turns own)
  · intro safe turns own
    refine (agrees_iff_of_own own).mpr ?_
    rintro ⟨report, finished, succeeded, endings⟩
    rcases ended_of_finished own finished with ⟨_, watched, told⟩ | ⟨said, other⟩
    · rcases safe with unwatched | ⟨patched, rested⟩
      · exact watched unwatched
      · rw [succeeded, patched, rested] at told
        rcases told with told | told <;> cases told
    · rw [endings] at other
      cases other

/-! ## A build that is said to have succeeded, and has not -/

/-- A tool that takes longer than its watchdog allows, and succeeds. -/
def sleeper : Errand :=
  .ofRun { Config.default none with watchdogTimeoutSecs := 1 } .gcc Environment.empty
    (Channel.new consoleCapacity) [] rfl rfl (.ok []) ⟨Path.ofText "x.c", false, false⟩
    ⟨"/bin/sh", ["-c", "sleep 2"], none⟩ fun _ => .ok ⟨[], [], .exited 0⟩

/-- The time of the watchdog comes while the tool runs. -/
def overtaken : List Turn :=
  [.serve, .proceed 0 .normal, .arrive Duration.max, .serve, .proceed 0 .normal,
    .proceed 0 .normal, .proceed 0 .normal]

/-- The tool has ended, and its end has been reported, before the time of the watchdog comes. -/
def inTime : List Turn :=
  [.serve, .proceed 0 .normal, .proceed 0 .normal, .proceed 0 .normal, .serve,
    .arrive Duration.max, .serve, .proceed 0 .normal, .arrive Duration.max, .serve]

/-- In one run the program agrees with the service, in another one it does not. -/
theorem sleeper_agrees_inTime :
    (∀ t ∈ inTime, t.isOwn = true) ∧ sleeper.outcome? inTime ≠ none ∧ sleeper.Agrees inTime ∧
      ¬ ∀ turns, (∀ t ∈ turns, t.isOwn = true) → sleeper.Agrees turns := by
  have own : ∀ t ∈ inTime, t.isOwn = true := by decide
  have final : sleeper.endings inTime = [.finalize 1 true ""] := by decide +kernel
  refine ⟨own, by decide +kernel, ((agrees_iff sleeper).1 inTime own).mpr ?_, ?_⟩
  · rintro ⟨report, _, _, endings⟩
    rw [final] at endings
    cases endings
  · intro always
    rcases (agrees_iff sleeper).2.mp always with unwatched | ⟨fails, _⟩
    · cases unwatched
    · have succeeds : (sleeper.toolEnd sleeper.patched).succeeded = true := by decide +kernel
      rw [succeeds] at fails
      cases fails

/-- The watchdog has ended the build; all the same the program says that it succeeded, and ends
    with 0. -/
theorem sleeper_contradicts_watchdog :
    (∀ t ∈ overtaken, t.isOwn = true) ∧ sleeper.endings overtaken = [.watchdog 1] ∧
      (∃ report, sleeper.outcome? overtaken = some (.ok (.finished report)) ∧
        report.buildId = 1 ∧ report.succeeded = true ∧
        report.result.outputs.map Output.text =
          ["", "", "build did not report completion within 1s\n"] ∧
        report.render =
          "build 1 succeeded for x.c: 0 error(s), 0 warning(s), 0 note(s) (exit code 0)" ∧
        ∀ options told,
          (CommandLine.ofOutcome options told (.ok (.finished report))).exitCode = 0) ∧
      ¬ sleeper.Agrees overtaken := by
  have endings : sleeper.endings overtaken = [.watchdog 1] := by decide +kernel
  have outcome : sleeper.outcome? overtaken = some (.ok (.finished ⟨1, true, some 0, ⟨"x.c",
      [⟨.normal, ""⟩, ⟨.error, ""⟩, ⟨.error, "build did not report completion within 1s\n"⟩],
      []⟩⟩)) := by decide +kernel
  refine ⟨by decide, endings, ⟨_, outcome, rfl, rfl, rfl, by decide +kernel, ?_⟩, ?_⟩
  · exact fun options told => (CommandLine.exitCode_ofOutcome options told _).mpr rfl
  · intro agrees
    obtain ⟨task, there, _, same, _⟩ := agrees _ outcome
    rw [endings] at there
    cases there
    cases same

end Errand

end BuildSupervisor
