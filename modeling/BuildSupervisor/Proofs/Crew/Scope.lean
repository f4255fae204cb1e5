import BuildSupervisor.Proofs.Crew.Exclusive
import BuildSupervisor.Proofs.Session.Silence
/-!
# Which services credit every build with its own result

`credited_of_calm` is the best that can be said: whenever a service may give a build up, because it
replaces builds, has a watchdog or is reset, there is a run in which the late report of the build
that was given up is taken for the next one.  In these runs the first invoker is `Slow`: it has yet
to start its tool when the service is `Free` for the next build.
-/

namespace BuildSupervisor.Crew

/-- The service has nothing to do, and the console and the bus are open. -/
structure Ready (c : Crew) : Prop where
  running : c.service.stopped = false
  arrived : c.service.arrived = []
  inbox : c.service.inbox = []
  silent : c.service.session.Silent
  listening : c.service.session.events.channel.closed = false

theorem step?_of_silent {v : Service} (running : v.stopped = false) (silent : v.session.Silent) :
    v.step? = v.serve? := by
  obtain ⟨session, located, arrived, inbox, replies, handles, stopped⟩ := v
  cases running
  unfold Service.step?
  rw [silent.nextChunk]
  rfl

/-- The crew after someone has asked for a build. -/
def afterJoin (c : Crew) (request : BuildRequest) (command : ToolCommand) (launch : Launch) :
    Crew :=
  let events := c.service.session.events
  let session : Session :=
    { c.service.session with
      events := { events with
        channel := { events.channel with readers := events.channel.readers + 1 } } }
  let message := (c.nextTicket, Command.start request)
  { service := { c.service with session := session, inbox := [message] }
    invokers := c.invokers ++
      [⟨command, launch, c.nextTicket, ⟨events.channel.sent.length⟩, .asking⟩]
    nextTicket := c.nextTicket + 1
    sent := c.sent ++ [message] }

theorem turn_join {c : Crew} (ready : Ready c) (request : BuildRequest) (command : ToolCommand)
    (launch : Launch) :
    c.turn (.join request command launch) = c.afterJoin request command launch := by
  obtain ⟨⟨session, located, arrived, inbox, replies, handles, stopped⟩, _, _, _⟩ := c
  obtain ⟨config, dialect, active, capture, lastId, console, events, _, _⟩ := session
  obtain ⟨⟨ring, published, readers, closed⟩, count⟩ := events
  obtain ⟨running, _, empty, _, listening⟩ := ready
  cases running
  cases empty
  cases listening
  rfl

theorem turn_serve_inbox {c : Crew} (running : c.service.stopped = false)
    (silent : c.service.session.Silent) (arrived : c.service.arrived = []) {ticket : Ticket}
    {command : Command} {rest : List (Ticket × Command)}
    (inbox : c.service.inbox = (ticket, command) :: rest) :
    c.turn .serve =
      { c with service := ({ c.service with inbox := rest }).handle ticket command } := by
  refine turn_serve ?_
  rw [step?_of_silent running silent]
  obtain ⟨⟨session, located, due, waiting, replies, handles, stopped⟩, _, _, _⟩ := c
  cases arrived
  cases inbox
  rfl

/-- Someone asked for a build and got it. -/
structure Joined (c d : Crew) (launch : Launch) : Prop where
  ready : Ready d
  invokers : ∃ i, d.invokers = c.invokers ++ [i] ∧ i.phase = .asking ∧ i.ticket = c.nextTicket ∧
    i.launch = launch
  replies : d.service.replies = c.service.replies ++
    [(c.nextTicket, .started (.ok (.accepted (c.service.session.lastId + 1))))]
  last : d.service.session.lastId = c.service.session.lastId + 1
  active : ∃ build, d.service.session.active = some build ∧
    build.id = c.service.session.lastId + 1 ∧ build.phase = .building
  config : d.service.session.config = c.service.session.config
  actions : d.service.session.schedule.actions = c.service.session.putOffAtStart.actions

theorem joined_serve {c : Crew} (ready : Ready c)
    (free : c.service.session.active = none ∨ c.service.session.config.reentry = .replace)
    (request : BuildRequest) (command : ToolCommand) (launch : Launch) :
    Joined c (c.run [.join request command launch, .serve]) launch := by
  have joined := turn_serve_inbox (c := c.afterJoin request command launch) ready.running
    ⟨ready.silent.isOpen, ready.silent.read⟩ ready.arrived rfl
  have served : c.run [.join request command launch, .serve] =
      (c.afterJoin request command launch).turn .serve := by
    rw [← turn_join ready]
    rfl
  rw [served, joined]
  have opens := Session.opens_start (s := (c.afterJoin request command launch).service.session)
    ready.silent.isOpen free c.service.located request
  obtain ⟨_, last, active, _⟩ := Service.accepted_start opens.accepted
  have settings := Session.effect_apply (c.afterJoin request command launch).service.session
    (.start c.service.located request)
  refine ⟨⟨ready.running, ready.arrived, rfl, ⟨opens.silent.isOpen, opens.silent.read⟩,
    opens.isOpen.trans ready.listening⟩, ⟨_, rfl, rfl, rfl, rfl⟩, ?_, last, active,
    settings.settings.1, ?_⟩
  · exact congrArg (fun outcome => c.service.replies ++ [(c.nextTicket, Reply.started outcome)])
      opens.accepted
  · exact (Schedule.actions_noLaterThan _ _).trans (congrArg Schedule.actions opens.schedule)

/-! ## A report that comes late -/

/-- A tool that succeeds without a word. -/
def mute : Launch :=
  fun _ => .ok ⟨[], [], .exited 0⟩

/-- Someone asks for a build with a mute tool, and gets it.  What is built makes no difference. -/
def opening : List Turn :=
  [.join ⟨Path.ofText "a", false, false⟩ ⟨"make", [], none⟩ mute, .serve]

theorem run_append (c : Crew) (first second : List Turn) :
    c.run (first ++ second) = (c.run first).run second :=
  List.foldl_append

theorem turn_proceed {c : Crew} (index : Nat) (first : OutputKind) {i j : Invoker} {v : Service}
    (there : c.invokers[index]? = some i) (step : i.step? first c.service = some (j, v)) :
    c.turn (.proceed index first) = { c.send v with invokers := c.invokers.set index j } := by
  simp only [turn, turn?, proceed?, there, Option.bind_some, step, Option.map_some,
    Option.getD_some]

/-- The turns in which the first invoker starts a mute tool, sees it end and reports that. -/
def reporting : List Turn :=
  [.proceed 0 .normal, .proceed 0 .normal, .proceed 0 .normal]

/-- A turn of the first invoker in which it sends nothing. -/
theorem turn_first {c : Crew} {i j : Invoker} {rest : List Invoker}
    (invokers : c.invokers = i :: rest) (step : i.step? .normal c.service = some (j, c.service)) :
    c.turn (.proceed 0 .normal) = { c with invokers := j :: rest } := by
  rw [turn_proceed 0 .normal (by rw [invokers]; rfl) step, send_of_undisturbed (.refl _), invokers,
    List.append_nil]
  rfl

/-- How a mute tool ends. -/
def muteEnd : ToolEnd :=
  ToolEnd.ofTool (RunningTool.ofRun ⟨[], [], .exited 0⟩)

/-- The first invoker has reported the end of a mute tool, and waits for the result. -/
theorem run_reporting {c : Crew} (ready : Ready c) {i : Invoker} {rest : List Invoker}
    (invokers : c.invokers = i :: rest) (phase : i.phase = .asking) (launch : i.launch = mute)
    {id : BuildId} (owns : c.Owns i.ticket id) :
    c.run reporting =
      { c with
        service := { c.service with inbox := [(i.ticket, .buildComplete true "")] }
        invokers := { i with phase := .waiting id muteEnd } :: rest
        sent := c.sent ++ [(i.ticket, .buildComplete true "")] } := by
  obtain ⟨command, launch', ticket, listener, phase'⟩ := i
  cases phase
  cases launch
  have reply : c.service.reply? ticket = some (.started (.ok (.accepted id))) := owns
  let tool := RunningTool.ofRun ⟨[], [], .exited 0⟩
  have asked : Invoker.step? ⟨command, mute, ticket, listener, .asking⟩ .normal c.service =
      some (⟨command, mute, ticket, listener, .running id tool⟩, c.service) := by
    simp only [Invoker.step?, Invoker.takeReply?, reply]
    rfl
  have ended : Invoker.step? ⟨command, mute, ticket, listener, .running id tool⟩ .normal c.service =
      some (⟨command, mute, ticket, listener, .reporting id muteEnd⟩, c.service) :=
    rfl
  have told : Invoker.step? ⟨command, mute, ticket, listener, .reporting id muteEnd⟩ .normal
      c.service =
      some (⟨command, mute, ticket, listener, .waiting id muteEnd⟩,
        { c.service with inbox := [(ticket, .buildComplete true "")] }) := by
    simp only [Invoker.step?, Invoker.report, Service.send?, ready.running, ready.inbox]
    rfl
  have first := turn_first invokers asked
  have second := turn_first (c := { c with invokers := _ :: rest }) rfl ended
  have third := turn_proceed (c := { c with invokers := _ :: rest }) 0 .normal rfl told
  have all : c.run reporting =
      ((c.turn (.proceed 0 .normal)).turn (.proceed 0 .normal)).turn (.proceed 0 .normal) := rfl
  rw [all, first, second, third, send, ready.inbox]
  rfl

theorem service_reporting {c : Crew} (ready : Ready c) {i : Invoker} {rest : List Invoker}
    (invokers : c.invokers = i :: rest) (phase : i.phase = .asking) (launch : i.launch = mute)
    {id : BuildId} (owns : c.Owns i.ticket id) :
    (c.run reporting).service =
      { c.service with inbox := [(i.ticket, .buildComplete true "")] } := by
  rw [run_reporting ready invokers phase launch owns]

theorem dueCommand?_of_ready {c : Crew} (ready : Ready c) (m : Ticket × Command) :
    ({ c.service with inbox := [m] } : Service).dueCommand? = some m := by
  have attentive : ({ c.service with inbox := [m] } : Service).isAttentive = true := by
    unfold Service.isAttentive
    dsimp only
    rw [ready.silent.nextChunk, ready.running]
    rfl
  unfold Service.dueCommand?
  rw [attentive, ready.arrived]
  rfl

/-- The only invoker has got a build and has yet to start its mute tool. -/
def Slow (c : Crew) : Prop :=
  ∃ i, c.invokers = [i] ∧ i.phase = .asking ∧ i.launch = mute ∧
    ∃ id, c.Owns i.ticket id ∧ id ≤ c.service.session.lastId

/-- The invoker is slow, and the service takes another build. -/
structure Free (c : Crew) : Prop where
  ready : Ready c
  free : c.service.session.active = none ∨ c.service.session.config.reentry = .replace
  slow : Slow c

/-- The next build is taken up, and then the first tool ends. -/
def late : List Turn :=
  opening ++ reporting

theorem not_attended_late {c : Crew} (h : Free c) : ¬ Attended (c.run late) := by
  intro attended
  obtain ⟨i, invokers, phase, launch, id, owns, older⟩ := h.slow
  have joined : Joined c (c.run opening) mute := joined_serve h.ready h.free _ _ mute
  rw [late, run_append] at attended
  generalize c.run opening = d at joined attended
  obtain ⟨i', both, _⟩ := joined.invokers
  rw [invokers] at both
  have owns' : d.Owns i.ticket id := by
    unfold Owns Service.reply? at owns ⊢
    rw [joined.replies, List.lookup_append, owns, Option.some_or]
  have service := service_reporting joined.ready both phase launch owns'
  obtain ⟨build, active, number, running⟩ := joined.active
  have due : (d.run reporting).service.dueCommand? = some (i.ticket, .buildComplete true "") := by
    rw [service]
    exact dueCommand?_of_ready joined.ready _
  have state : (d.run reporting).service.session.state = .building := by
    rw [service]
    exact Session.state_eq_building.mpr ⟨build, active, running⟩
  have owner : (d.run reporting).Owns i.ticket id := by
    unfold Owns Service.reply?
    rw [service]
    exact owns'
  -- The report is about the first build, but the second one is at hand.
  have current := attended i.ticket true "" id due owner state
  rw [service] at current
  have same : build.id = id :=
    Option.some.inj ((Session.currentBuild?_of_active active).symm.trans current)
  rw [← same, number] at older
  exact Nat.not_succ_le_self _ older

/-! ## How a build is given up -/

theorem Effect.lastId_le {c d : Crew} {t : Turn} (effect : Effect c t d) :
    c.service.session.lastId ≤ d.service.session.lastId := by
  rcases effect.service with step | ⟨_, peace⟩
  · exact Service.lastId_le_step step
  · exact Nat.le_of_eq peace.lastId.symm

/-- An invoker that has no turn stays slow. -/
theorem Slow.turn {c : Crew} (slow : Slow c) {t : Turn}
    (same : (c.turn t).invokers = c.invokers) : Slow (c.turn t) := by
  obtain ⟨i, invokers, phase, launch, id, owns, older⟩ := slow
  refine ⟨i, same.trans invokers, phase, launch, id, ?_⟩
  rcases effect_turn c t with unchanged | effect
  · rw [unchanged]
    exact ⟨owns, older⟩
  · exact ⟨effect.owns owns, Nat.le_trans older effect.lastId_le⟩

/-- Someone who has just got the first build is slow. -/
theorem Joined.slow {c d : Crew} (joined : Joined c d mute) (alone : c.invokers = [])
    (silent : c.service.replies = []) : Slow d := by
  obtain ⟨i, invokers, phase, ticket, launch⟩ := joined.invokers
  rw [alone] at invokers
  refine ⟨i, invokers, phase, launch, _, ?_, Nat.le_of_eq joined.last.symm⟩
  unfold Owns Service.reply?
  rw [joined.replies, silent, ticket]
  exact List.lookup_cons_self

theorem arrive?_of_pop? {v : Service} {target : Duration} {t : ScheduledJob Deferred}
    {rest : Schedule Deferred} (popped : v.session.schedule.pop? target = some (t, rest))
    (running : v.stopped = false) :
    v.arrive? target = some
      { v with
        session := { v.session with schedule := rest }
        arrived := v.arrived ++ [t.job.action] } := by
  obtain ⟨session, located, arrived, inbox, replies, handles, stopped⟩ := v
  cases running
  rw [Service.arrive?, popped]
  rfl

/-- The watchdog is all that is put off, and runs out. -/
theorem free_of_watchdog {c : Crew} (ready : Ready c) (slow : Slow c) {build : ActiveBuild}
    (active : c.service.session.active = some build) (phase : build.phase = .building)
    (actions : c.service.session.schedule.actions = [.watchdog build.id]) :
    Free (c.run [.arrive Duration.max, .serve]) := by
  obtain ⟨t, pending, action⟩ := List.map_eq_singleton_iff.mp actions
  let schedule : Schedule Deferred :=
    { c.service.session.schedule with now := t.due, pending := [] }
  let session : Session := { c.service.session with schedule := schedule }
  have due : t.due ≤ Duration.max := by
    refine Nat.le_trans t.due.bounded (Nat.le_of_eq ?_)
    exact (Nat.min_self maxNanos).symm
  have popped : c.service.session.schedule.pop? Duration.max = some (t, schedule) := by
    simp only [Schedule.pop?, pending, due, if_true, schedule]
  let expired : Service :=
    { c.service with session := session, arrived := [.watchdog build.id] }
  let ended : Service :=
    { c.service with session := session.runDeferred (.watchdog build.id), arrived := [] }
  have arrive : c.service.arrive? Duration.max = some expired := by
    rw [arrive?_of_pop? popped ready.running, ready.arrived, action]
    rfl
  have arrived : c.turn (.arrive Duration.max) = { c with service := expired } := by
    simp only [Crew.turn, turn?, arrive, Option.map_some, Option.getD_some]
  have silent : session.Silent := ⟨ready.silent.isOpen, ready.silent.read⟩
  have served : (c.turn (.arrive Duration.max)).turn .serve = { c with service := ended } := by
    have step : expired.step? = some ended := step?_of_silent (v := expired) ready.running silent
    rw [arrived, turn_serve (c := { c with service := expired }) step]
  obtain ⟨gone, rested, listening⟩ := Session.runDeferred_watchdog silent active phase
  have kept : Slow ((c.turn (.arrive Duration.max)).turn .serve) := by
    refine Slow.turn (slow.turn ?_) ?_
    · rw [arrived]
    · rw [served, arrived]
  have all : c.run [.arrive Duration.max, .serve] = (c.turn (.arrive Duration.max)).turn .serve :=
    rfl
  rw [all]
  refine ⟨?_, ?_, kept⟩
  · rw [served]
    exact ⟨ready.running, rfl, ready.inbox, rested, listening.trans ready.listening⟩
  · rw [served]
    exact .inl gone

/-- The crew after someone has asked for a reset. -/
def afterReset (c : Crew) : Crew :=
  let message := (c.nextTicket, Command.reset)
  { c with
    service := { c.service with inbox := [message] }
    nextTicket := c.nextTicket + 1
    sent := c.sent ++ [message] }

/-- An order comes to a service that has nothing to do. -/
theorem turn_order {c : Crew} (ready : Ready c) (o : Order) :
    c.turn (.order o) =
      { c with
        service := { c.service with inbox := [(c.nextTicket, o.command)] }
        nextTicket := c.nextTicket + 1
        sent := c.sent ++ [(c.nextTicket, o.command)] } := by
  obtain ⟨⟨session, located, arrived, inbox, replies, handles, stopped⟩, _, _, _⟩ := c
  obtain ⟨running, _, empty, _, _⟩ := ready
  cases running
  cases empty
  rfl

theorem turn_reset {c : Crew} (ready : Ready c) : c.turn (.order .reset) = c.afterReset :=
  turn_order ready .reset

/-- The service is reset. -/
theorem free_of_reset {c : Crew} (ready : Ready c) (slow : Slow c) :
    Free (c.run [.order .reset, .serve]) := by
  have served : (c.turn (.order .reset)).turn .serve =
      { c.afterReset with
        service :=
          { c.service with
            session := c.service.session.reset
            inbox := []
            replies := c.service.replies ++ [(c.nextTicket, .done)] } } := by
    rw [turn_reset ready,
      turn_serve_inbox (c := c.afterReset) ready.running ready.silent ready.arrived rfl]
    rfl
  have kept : Slow ((c.turn (.order .reset)).turn .serve) := by
    refine Slow.turn (slow.turn ?_) ?_
    · rw [turn_reset ready]
      rfl
    · rw [served, turn_reset ready]
  have all : c.run [.order .reset, .serve] = (c.turn (.order .reset)).turn .serve := rfl
  rw [all]
  refine ⟨?_, ?_, kept⟩
  · rw [served]
    exact ⟨ready.running, ready.arrived, rfl, Session.silent_reset ready.silent.isOpen,
      ready.listening⟩
  · rw [served]
    exact .inl rfl

/-! ## Which services are right in every run -/

theorem not_credited_of_free {c : Crew} {turns : List Turn} (free : Free (c.run turns)) :
    ¬ Throughout Credited c (turns ++ late) := by
  intro credited
  have last := credited _ [] (List.append_nil _).symm
  rw [run_append] at last
  exact not_attended_late free last.attended

section

variable (config : Config) (dialect : Dialect) (environment : Environment) {console : Console}
  (isOpen : console.closed = false) (located : Located)

include isOpen

theorem joined_opening :
    Joined (Crew.new (Session.new config dialect environment console) located)
      ((Crew.new (Session.new config dialect environment console) located).run opening) mute := by
  refine joined_serve ⟨rfl, rfl, rfl, ⟨isOpen, ?_⟩, rfl⟩ (.inl rfl) _ _ mute
  intro cursor there
  cases there

/-- A service that replaces builds, or has a watchdog, gives a build up without being reset. -/
theorem exists_free (gives : config.reentry = .replace ∨ config.watchdogTimeout? ≠ none) :
    ∃ turns, (∀ t ∈ turns, t ≠ .order .reset) ∧
      Free ((Crew.new (Session.new config dialect environment console) located).run turns) := by
  have joined := joined_opening config dialect environment isOpen located
  have slow := joined.slow rfl rfl
  rcases gives with replaces | watched
  · have policy := (congrArg Config.reentry joined.config).trans replaces
    exact ⟨opening, by simp [opening], joined.ready, .inr policy, slow⟩
  · obtain ⟨timeout, there⟩ := Option.ne_none_iff_exists'.mp watched
    obtain ⟨build, active, number, phase⟩ := joined.active
    refine ⟨opening ++ [.arrive Duration.max, .serve], by simp [opening], ?_⟩
    rw [run_append]
    refine free_of_watchdog joined.ready slow active phase ?_
    have there : (Crew.new (Session.new config dialect environment console)
        located).service.session.config.watchdogTimeout? = some timeout := there
    rw [joined.actions, Session.putOffAtStart, there, number]
    rfl

/-- On an open console, a service that is not reset credits every build with its own result in
    every run exactly if it refuses builds that are in the way and has no watchdog. -/
theorem always_credited_iff :
    (∀ turns, (∀ t ∈ turns, t ≠ .order .reset) →
      Throughout Credited (Crew.new (Session.new config dialect environment console) located)
        turns) ↔
      config.reentry = .reject ∧ config.watchdogTimeout? = none := by
  constructor
  · intro always
    by_contra gives
    have gives : config.reentry = .replace ∨ config.watchdogTimeout? ≠ none := by
      cases policy : config.reentry with
      | replace => exact .inl rfl
      | reject => exact .inr fun unwatched => gives ⟨policy, unwatched⟩
    obtain ⟨turns, keep, free⟩ :=
      exists_free config dialect environment isOpen located gives
    refine not_credited_of_free free (always _ ?_)
    intro t mem
    rcases List.mem_append.mp mem with early | last
    · exact keep t early
    · rintro rfl
      simp [late, opening, reporting] at last
  · rintro ⟨rejects, unwatched⟩ turns keep
    exact credited_of_calm rejects unwatched dialect environment console located keep

/-- Whatever the configuration is, a reset may let a build have the result of another one. -/
theorem exists_not_credited :
    ∃ turns, ¬ Throughout Credited
      (Crew.new (Session.new config dialect environment console) located) turns := by
  have joined := joined_opening config dialect environment isOpen located
  refine ⟨(opening ++ [.order .reset, .serve]) ++ late, not_credited_of_free ?_⟩
  rw [run_append]
  exact free_of_reset joined.ready (joined.slow rfl rfl)

end

/-- In a run, nobody is credited with what another one's tool did exactly if each report that the
    service turns to while a tool runs is about the build at hand.  On an open console, this is so
    in all runs without a reset exactly if builds that are in the way are refused and there is no
    watchdog; no configuration makes it so in all runs. -/
theorem credited_iff (config : Config) (dialect : Dialect) (environment : Environment)
    (console : Console) (located : Located) :
    (∀ turns,
      Throughout Credited (Crew.new (Session.new config dialect environment console) located)
          turns ↔
        Throughout Attended (Crew.new (Session.new config dialect environment console) located)
          turns) ∧
      (console.closed = false →
        ((∀ turns, (∀ t ∈ turns, t ≠ .order .reset) →
          Throughout Credited (Crew.new (Session.new config dialect environment console) located)
            turns) ↔
          config.reentry = .reject ∧ config.watchdogTimeout? = none) ∧
        ∃ turns, ¬ Throughout Credited
          (Crew.new (Session.new config dialect environment console) located) turns) := by
  refine ⟨credited_iff_attended config dialect environment console located, ?_⟩
  intro isOpen
  exact ⟨always_credited_iff config dialect environment isOpen located,
    exists_not_credited config dialect environment isOpen located⟩

/-- A session that replaces builds is not always right, even if nobody resets it. -/
theorem not_always_credited_patient :
    (Channel.new consoleCapacity : Console).closed = false ∧
      ¬ ∀ turns, (∀ t ∈ turns, t ≠ .order .reset) → Throughout Credited patient turns := by
  refine ⟨rfl, ?_⟩
  intro always
  have refuses := (((credited_iff _ _ _ _ _).2 rfl).1.mp always).1
  cases refuses

end BuildSupervisor.Crew
