import BuildSupervisor.CommandLine.Run
import BuildSupervisor.Proofs.Crew.Abreast
import BuildSupervisor.Proofs.Errand.Progress
import BuildSupervisor.Proofs.Event.Question
/-!
# The program's run of an errand

The program runs the build that it asks for as soon as it can, which is one of the runs of an
errand: `Errand.exists_run_eq_runBuild`.  On a clock that has not moved yet no watchdog comes before
the tool has ended, and every chunk is read before the next one is written; so the program tells of
the build what undisturbed runs tell of it, and `CommandLine.build_eq` says what it prints.
-/

namespace BuildSupervisor

theorem Turn.isOwn_eq_isOf (t : Turn) : t.isOwn = t.isOf 0 := by
  cases t <;> rfl

theorem Crew.outcomeOf?_zero (c : Crew) : c.outcomeOf? 0 = c.outcome? := by
  obtain ⟨service, invokers, nextTicket, sent⟩ := c
  cases invokers <;> rfl

namespace Errand

variable {e : Errand} {stage : Stage} {phase : InvokerPhase} {chunks : List Chunk} {c : Crew}

/-- What comes of the errand if everything happens as soon as it can. -/
def runBuild (e : Errand) : Option (Except InvokeError Outcome) × Service :=
  (Service.new e.session e.located).runBuild 0 e.request e.command e.launch

/-- Doing everything as soon as it can be done is one of the runs of the errand. -/
theorem exists_run_eq_runBuild (e : Errand) :
    ∃ turns : List Turn, (∀ t ∈ turns, t.isOwn = true) ∧
      (e.after turns).service = e.runBuild.2 ∧ e.outcome? turns = e.runBuild.1 := by
  obtain ⟨turns, own, service, outcome⟩ :=
    (Crew.new e.session e.located).exists_run_eq_runBuild e.booked.isOpen e.request e.command
      e.launch
  refine ⟨turns, fun t mem => (t.isOwn_eq_isOf).trans (own t mem), service, ?_⟩
  exact (Crew.outcomeOf?_zero _).symm.trans outcome

end Errand

/-! ## Before the first second -/

/-- A task is not due when the clock starts. -/
def Schedule.IsLater (s : Schedule Deferred) (task : Deferred) : Prop :=
  ∀ t ∈ s.pending, t.job.action = task → Duration.zero < t.due

namespace Schedule

variable {s : Schedule Deferred} {task : Deferred}

theorem IsLater.schedule (h : s.IsLater task) {delay : Duration} {job : Job Deferred}
    (later : job.action = task → Duration.zero < s.now.add delay) :
    (s.schedule delay job).IsLater task := by
  intro t mem same
  rcases mem_insert.mp mem with rfl | mem
  · exact later same
  · exact h t mem same

theorem IsLater.noLaterThan (h : s.IsLater task) {latest : Duration}
    (later : Duration.zero < latest) : (s.noLaterThan latest).IsLater task := by
  intro hastened mem same
  obtain ⟨t, there, rfl⟩ := List.mem_map.mp mem
  by_cases late : latest < t.due
  · rw [if_pos late]
    exact later
  · rw [if_neg late] at same ⊢
    exact h t there same

end Schedule

theorem Config.zero_lt_watchdogTimeout {config : Config} {timeout : Duration}
    (set : config.watchdogTimeout? = some timeout) :
    Duration.zero < Duration.zero.add timeout := by
  unfold watchdogTimeout? at set
  split at set
  · rename_i positive
    cases set
    have positive : 0 < config.watchdogTimeoutSecs.toNat := positive
    change 0 < min (0 + min (config.watchdogTimeoutSecs.toNat * 1000000000) maxNanos) maxNanos
    simp only [maxNanos]
    omega
  · cases set

/-- The clock has not moved, and a task has not arrived and does not do so now. -/
structure Service.Early (v : Service) (task : Deferred) : Prop where
  now : v.session.schedule.now = Duration.zero
  arrived : task ∉ v.arrived
  later : v.session.schedule.IsLater task

namespace Service

variable {v w : Service} {id : BuildId}

theorem Early.handle (h : v.Early (.watchdog id)) (ticket : Ticket) (command : Command) :
    (v.handle ticket command).Early (.watchdog id) := by
  have now := (now_handle v ticket command).trans h.now
  have hastened {u : Service} (zero : u.session.schedule.now = Duration.zero)
      (later : u.session.schedule.IsLater (.watchdog id)) :
      u.hasten.session.schedule.IsLater (.watchdog id) := by
    refine later.noLaterThan ?_
    rw [zero]
    decide +kernel
  cases command with
  | start request =>
    refine ⟨now, h.arrived, hastened now ?_⟩
    have timing := v.session.timing_start v.located request
    change (v.session.start v.located request).2.schedule.IsLater _
    generalize (v.session.start v.located request).2 = t at timing
    cases timing with
    | kept _ schedule => exact schedule ▸ h.later
    | rested _ schedule => exact schedule ▸ h.later
    | armed _ _ _ _ schedule =>
      rw [schedule, Session.putOffAtStart]
      split
      · rename_i timeout set
        refine h.later.schedule fun _ => ?_
        rw [h.now]
        exact Config.zero_lt_watchdogTimeout set
      · exact h.later
  | buildComplete succeeded said =>
    refine ⟨now, h.arrived, hastened now ?_⟩
    change (v.session.onBuildComplete succeeded said).2.schedule.IsLater _
    unfold Session.onBuildComplete
    split
    · exact h.later
    · split
      · exact h.later
      · exact h.later.schedule nofun
  | reset => exact ⟨now, h.arrived, h.later⟩
  | status => exact ⟨now, h.arrived, h.later⟩
  | shutdown => exact ⟨now, List.not_mem_nil, h.later⟩

theorem Early.step (h : v.Early (.watchdog id)) (step : v.step? = some w) :
    w.Early (.watchdog id) := by
  have turn := v.step_cases
  rw [step] at turn
  cases turn with
  | heard _ _ looked =>
    exact ⟨looked.schedule ▸ h.now, looked.arrived ▸ h.arrived, looked.schedule ▸ h.later⟩
  | @did u task rest _ _ arrived looked =>
    have schedule := (u.session.schedule_runDeferred task).trans looked.schedule
    refine ⟨(congrArg Schedule.now schedule).trans h.now, ?_, ?_⟩
    · intro mem
      exact h.arrived (arrived ▸ List.mem_cons_of_mem _ mem)
    · intro t mem
      rw [schedule] at mem
      exact h.later t mem
  | @took u ticket command rest _ _ _ _ looked =>
    have before : ({ u with inbox := rest } : Service).Early (.watchdog id) :=
      ⟨looked.schedule ▸ h.now, looked.arrived ▸ h.arrived, looked.schedule ▸ h.later⟩
    exact before.handle ticket command
  | @ended u _ _ looked =>
    exact ⟨looked.schedule ▸ h.now, List.not_mem_nil, looked.schedule ▸ h.later⟩

/-- What arrives at once is another task. -/
theorem Early.arrive (h : v.Early (.watchdog id)) (arrives : v.arrive? Duration.zero = some w) :
    w.Early (.watchdog id) := by
  obtain ⟨⟨t, rest⟩, popped, rfl⟩ := Option.map_eq_some_iff.mp arrives
  obtain ⟨pending, due, moved⟩ := Schedule.pop?_eq_some popped
  have zero : t.due = Duration.zero := Duration.ext (Nat.le_zero.mp due)
  refine ⟨(congrArg Schedule.now moved).trans zero, ?_, ?_⟩
  · dsimp only
    split
    · exact List.not_mem_nil
    · intro mem
      rcases List.mem_append.mp mem with old | new
      · exact h.arrived old
      · have later := h.later t (pending ▸ List.mem_cons_self) (List.mem_singleton.mp new).symm
        rw [zero] at later
        exact Nat.lt_irrefl _ later
  · intro other mem
    exact h.later other (pending ▸ List.mem_cons_of_mem _ mem)

end Service

/-! ## The stages of the program's run -/

namespace Errand

variable {e : Errand} {stage next : Stage} {phase : InvokerPhase} {chunks : List Chunk} {c : Crew}
  {fits : Stage → Prop}

/-- The crew is at a stage that fits, and the service keeps up with the console. -/
structure Keeps (e : Errand) (fits : Stage → Prop) (c : Crew) : Prop where
  place : ∃ stage phase chunks, At e True stage phase chunks c ∧ fits stage
  abreast : c.service.session.Abreast

namespace Keeps

/-- The service goes on to a stage that fits. -/
theorem serve (h : e.Keeps fits c)
    (goesOn : ∀ stage phase chunks next w, fits stage →
      Passes e True stage phase chunks c.service.session.events.log c.service.dueTask? next w →
      fits next) :
    e.Keeps fits (c.turn .serve) := by
  rcases c.turn_serve_cases with same | ⟨w, step, moved⟩
  · rw [same]
    exact h
  · obtain ⟨⟨stage, phase, chunks, there, fit⟩, abreast⟩ := h
    obtain ⟨next, passes⟩ := passes_step there.serves there.attends
      (fun _ => Nat.le_trans abreast.few abreast.roomy) step
    rw [moved]
    exact ⟨⟨next, phase, chunks, ⟨passes.serves, there.invoker, passes.attends⟩,
      goesOn _ _ _ _ _ fit passes⟩, Service.abreast_step abreast step⟩

theorem arrive (h : e.Keeps fits c) (target : Duration) :
    e.Keeps fits (c.turn (.arrive target)) := by
  obtain ⟨⟨stage, phase, chunks, there, fit⟩, abreast⟩ := h
  refine ⟨⟨stage, phase, chunks, at_arrive there target, fit⟩, ?_⟩
  rcases c.turn_arrive_cases target with same | ⟨w, arrives, moved⟩
  · rw [same]
    exact abreast
  · rw [moved]
    obtain ⟨⟨t, rest⟩, _, rfl⟩ := Option.map_eq_some_iff.mp arrives
    exact ⟨abreast.few, abreast.roomy⟩

theorem clock (h : e.Keeps fits c) (now : Duration) :
    e.Keeps fits { c with service := c.service.clockAt now } := by
  obtain ⟨⟨stage, phase, chunks, ⟨serves, invoker, attends⟩, fit⟩, abreast⟩ := h
  exact ⟨⟨stage, phase, chunks, ⟨serves.of_clock (v := c.service) rfl, invoker, attends⟩, fit⟩,
    ⟨abreast.few, abreast.roomy⟩⟩

theorem proceed (h : e.Keeps fits c) (waits : c.service.step? = none) :
    e.Keeps fits (c.turn (.proceed 0 .normal)) := by
  obtain ⟨⟨stage, phase, chunks, there, fit⟩, abreast⟩ := h
  obtain ⟨phase', chunks', there'⟩ := at_proceed there .normal
  refine ⟨⟨stage, phase', chunks', there', fit⟩, ?_⟩
  rcases c.turn_proceed_cases 0 .normal with same | ⟨i, j, w, _, step, moved⟩
  · rw [same]
    exact abreast
  · rw [moved]
    exact Service.abreast_handled abreast there.serves.running waits (Crew.handled_step step)

end Keeps

/-- The build has not expired. -/
def Stage.IsLive (stage : Stage) : Prop :=
  ∀ result, stage ≠ .expired result

/-- Only its watchdog lets a build expire. -/
theorem Passes.isLive {log : List Notification} {task? : Option Deferred} {w : Service}
    (h : Passes e True stage phase chunks log task? next w) (live : stage.IsLive)
    (other : task? ≠ some (.watchdog e.id)) : next.IsLive := by
  rintro result rfl
  have endings := h.endings
  have same : (if w.session.events.log = log then none else task?) = some (.watchdog e.id) := by
    cases stage with
    | expired result => exact absurd rfl (live result)
    | finished result => cases endings
    | _ => exact (Option.toList_eq_singleton_iff.mp endings.symm)
  split at same
  · cases same
  · exact other same

/-- The clock has not moved, and the build has not expired. -/
structure Prompt (e : Errand) (c : Crew) : Prop where
  keeps : e.Keeps Stage.IsLive c
  early : c.service.Early (.watchdog e.id)

/-- While the clock stands still, the build does not expire. -/
theorem endures_prompt (e : Errand) : Crew.Endures e.Prompt 0 Duration.zero where
  serve c h := by
    refine ⟨h.keeps.serve ?_, ?_⟩
    · intro stage phase chunks next w live passes
      refine passes.isLive live fun due => h.early.arrived ?_
      unfold Service.dueTask? at due
      split at due
      · exact List.mem_of_head? due
      · cases due
    · rcases c.turn_serve_cases with same | ⟨w, step, moved⟩
      · rw [same]
        exact h.early
      · rw [moved]
        exact h.early.step step
  arrive c h := by
    refine ⟨h.keeps.arrive _, ?_⟩
    rcases c.turn_arrive_cases Duration.zero with same | ⟨w, arrives, moved⟩
    · rw [same]
      exact h.early
    · rw [moved]
      exact h.early.arrive arrives
  clock c h := ⟨h.keeps.clock _, ⟨rfl, h.early.arrived, h.early.later⟩⟩
  proceed c h waits := by
    refine ⟨h.keeps.proceed waits, ?_⟩
    rcases c.turn_proceed_cases 0 .normal with same | ⟨i, j, w, _, step, moved⟩
    · rw [same]
      exact h.early
    · rw [moved]
      have handled := Crew.handled_step step
      have schedule := handled.schedule
      have arrived : w.arrived = c.service.arrived := by
        cases handled <;> rfl
      exact ⟨schedule ▸ h.early.now, arrived ▸ h.early.arrived, schedule ▸ h.early.later⟩

/-- Once the end of the tool is reported, the build only waits for its result. -/
theorem endures_reported (e : Errand) (target : Duration) :
    Crew.Endures (e.Keeps (·.isReported = true)) 0 target where
  serve _ h := h.serve fun _ _ _ _ _ reported passes => passes.reported reported
  arrive _ h := h.arrive target
  clock _ h := h.clock target
  proceed _ h := h.proceed

/-- The invoker of a live build has nothing to do only when it has reported the end of the tool. -/
theorem Prompt.reported (h : e.Prompt c) (waits : c.service.step? = none)
    (stuck : c.proceed? 0 .normal = none) : e.Keeps (·.isReported = true) c := by
  obtain ⟨⟨⟨stage, phase, chunks, there, live⟩, abreast⟩, _⟩ := h
  refine ⟨⟨stage, phase, chunks, there, ?_⟩, abreast⟩
  obtain ⟨_, empty⟩ := there.serves.quiet waits
  obtain ⟨serves, ⟨listener, invokers, listening⟩, attends⟩ := there
  unfold Crew.proceed? at stuck
  rw [invokers, List.getElem?_cons_zero, Option.bind_some, Option.map_eq_none_iff] at stuck
  rw [empty] at attends
  cases attends with
  | building duty pending =>
    have goesOn (outcome) : phase ≠ .over outcome := by
      rintro rfl
      cases duty
    cases listening goesOn
    have goes : ((e.invoker e.listener phase).step? .normal c.service).isSome = true :=
      isSome_step? serves (by simp) duty fun id ended waits => absurd rfl (pending id ended waits)
    rw [stuck] at goes
    cases goes
  | reported _ => rfl
  | expired _ _ => exact absurd rfl (live _)
  | finished _ => rfl
  | failed _ _ => exact absurd rfl (live _)
  | ended => rfl

theorem outcome?_eq_none (h : At e True stage phase chunks c)
    (goesOn : ∀ outcome, phase ≠ .over outcome) : c.outcome? = none := by
  rw [h.outcome?]
  split
  · exact absurd rfl (goesOn _)
  · rfl

/-- Where nothing happens any more, the build has got its result, and the invoker has told so. -/
theorem Keeps.ended (h : e.Keeps (·.isReported = true) c)
    (nothing : c.outcome? = none → ∃ i, c.invokers[0]? = some i ∧ c.Stuck i) :
    c.outcome? = some (.ok (.finished e.report)) ∧
      ∃ chunks, Serves e True (.finished e.result) chunks c.service := by
  obtain ⟨⟨stage, phase, chunks, there, reported⟩, _⟩ := h
  have stuck (goesOn : ∀ outcome, phase ≠ .over outcome) : c.Stuck (e.invoker e.listener phase) := by
    obtain ⟨i, who, stuck⟩ := nothing (outcome?_eq_none there goesOn)
    obtain ⟨listener, invokers, listening⟩ := there.invoker
    rw [invokers, listening goesOn] at who
    cases who
    exact stuck
  have serves := there.serves
  obtain ⟨inbox, attends⟩ : ∃ inbox, Attends e stage phase inbox chunks := ⟨_, there.attends⟩
  cases attends with
  | reported _ =>
    have stuck := stuck nofun
    have due := serves.due e.final rfl
    rw [Service.putOff, (serves.quiet stuck.waits).1, Schedule.actions, stuck.pending] at due
    cases due
  | @finished result _ _ =>
    have silent := (stuck nofun).silent
    obtain ⟨cursor, found⟩ := takeResult?_eq serves e.patched
      (i := e.invoker e.listener (.waiting e.id (e.toolEnd e.patched))) rfl
    have step : (e.invoker e.listener (.waiting e.id (e.toolEnd e.patched))).step? .normal
        c.service = some (e.invoker cursor (.over (.ok (.finished (e.reportOf e.patched result)))),
          c.service) := found
    unfold Invoker.nextOutcome? at silent
    rw [step] at silent
    cases silent
  | @ended result _ =>
    have right : result = e.result := serves.tends.sound trivial
    subst right
    exact ⟨there.outcome?, chunks, serves⟩
  | _ => cases reported

/-- Before the service has done anything, nothing has expired. -/
theorem prompt_start (e : Errand) (abreast : e.session.Abreast)
    (clock : e.session.schedule.now = Duration.zero) : e.Prompt e.start := by
  refine ⟨⟨⟨.asked, .asking, [], e.at_start True, nofun⟩, ?_⟩, ?_⟩
  · rw [start_eq]
    exact ⟨abreast.few, abreast.roomy⟩
  · rw [start_eq]
    refine ⟨clock, List.not_mem_nil, ?_⟩
    intro t mem same
    have given := e.given t.job.action (List.mem_map_of_mem mem)
    rw [same] at given
    exact absurd given (Nat.not_succ_le_self _)

/-- A service on whose clock no time has gone by runs the build as all undisturbed runs do, and the
    build always gets its result. -/
theorem runBuild_eq (e : Errand) (abreast : e.session.Abreast)
    (clock : e.session.schedule.now = Duration.zero) :
    e.runBuild.1 = some (.ok (.finished e.report)) ∧
      ∃ chunks, Serves e True (.finished e.result) chunks e.runBuild.2 := by
  obtain ⟨_, c, _, leads, service, outcome, nothing⟩ :=
    (Crew.new e.session e.located).leads_runBuild e.endures_prompt (e.endures_reported Duration.max)
      (fun _ => Prompt.reported) clock e.booked.isOpen e.request e.command e.launch
      (e.prompt_start abreast clock)
  have kept : e.Keeps (·.isReported = true) c := leads.holds
  have zero : c.outcomeOf? 0 = c.outcome? := c.outcomeOf?_zero
  obtain ⟨report, chunks, serves⟩ := kept.ended fun none_ => nothing (zero.trans none_)
  exact ⟨outcome.symm.trans (zero.trans report), chunks, service ▸ serves⟩

end Errand

namespace CommandLine

/-- The notifications of a build that has got its result, if it is the first one. -/
def toldOf (result : BuildResult) : List Notification :=
  [⟨1, 1, .started⟩, ⟨2, 1, .completed result⟩]

/-- The errand that the program runs; it listens to the events from before the start. -/
def errand (host : Host) (env : Environment) (config : Config) (request : BuildRequest)
    (command : ToolCommand) : Errand where
  session :=
    { Session.new config config.dialect env (Channel.new consoleCapacity) with
      events := ⟨⟨eventCapacity, [], 1, false⟩, 0⟩ }
  located := config.toolchain.locate host.files
  request := request
  command := command
  launch := host.launch command
  rest := rfl
  booked := ⟨rfl, rfl, .nil, nofun, nofun⟩
  ending := rfl
  given := nofun
  isOpen := rfl
  roomy := Nat.le_of_ble_eq_true rfl

/-- All that has been published can be read from the start, if the bus keeps it. -/
theorem drain_eq_log {bus : EventBus} (kept : bus.log.length ≤ bus.channel.ring) :
    (bus.drain ⟨0⟩).1 = bus.log := by
  have answers : bus.Answers (.handed (bus.channel.unread ⟨0⟩), []) (bus.ask ⟨0⟩ .drain) :=
    EventBus.answers_drain (Nat.zero_le _) kept
  exact EventBus.Reply.handed.inj answers.reply

section

variable (host : Host) (env : Environment) (stamp : Stamp) (o : Options) (config : Config)
  (request : BuildRequest) (command : ToolCommand)
  (bears : env.bearsPatch config.pathVariable (config.toolchain.locate host.files) = true)

include bears

/-- The program runs the build of its errand as soon as it can. -/
theorem build_of_bears :
    build host env stamp o config request command =
      match (errand host env config request command).runBuild with
      | (none, _) => failed ""
      | (some outcome, v) =>
        ofOutcome o (eventLines o stamp (v.session.events.drain ⟨0⟩).1) outcome := by
  unfold build
  dsimp only
  rw [bears]
  rfl

/-- What the program prints: its build comes to the report that the errand comes back with, and
    nothing else is told of it but that it has started and its result. -/
theorem build_eq :
    build host env stamp o config request command =
      ofOutcome o
        (eventLines o stamp (toldOf (errand host env config request command).result))
        (.ok (.finished (errand host env config request command).report)) := by
  obtain ⟨outcome, chunks, serves⟩ := (errand host env config request command).runBuild_eq
    ⟨Nat.zero_le 1, Nat.le_of_ble_eq_true rfl⟩ rfl
  have log := serves.tends.log
  have kept := serves.tends.roomy
  rw [build_of_bears host env stamp o config request command bears]
  generalize (errand host env config request command).runBuild = answer at outcome log kept
  obtain ⟨_, v⟩ := answer
  cases outcome
  have log : v.session.events.log = toldOf (errand host env config request command).result := log
  dsimp only
  rw [drain_eq_log (by rw [log]; exact kept), log]

end

end CommandLine

end BuildSupervisor
