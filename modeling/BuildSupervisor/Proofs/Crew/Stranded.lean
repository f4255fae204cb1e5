import BuildSupervisor.Proofs.Crew.Listening
import BuildSupervisor.Proofs.Crew.Scope
/-!
# Invokers that wait in vain

Whoever waits for the result of a build holds a handle, and every handle keeps the bus open.  So an
invoker is not told when the service stops before its build has a result: it finds nothing, and will
find nothing for ever.  `told_iff_settled` says that this is the only way in which it may happen,
and `exists_stranded` that no configuration is safe from it.
-/

namespace BuildSupervisor

/-- The bus as it is to those who listen: it ends when the service has stopped and nobody holds a
    handle any more. -/
def Service.bus (v : Service) : EventBus :=
  if v.stopped && v.handles = 0 then v.session.events.close else v.session.events

/-- What an invoker finds that looks for the result of a build. -/
def Invoker.finds (i : Invoker) (v : Service) (id : BuildId) :
    Except ListenError (Option Notification) :=
  (v.bus.completionOf id i.listener).1

namespace Crew

/-- Once the service has stopped, whoever waits for a build finds its result, or learns that it will
    not come. -/
def Told (c : Crew) : Prop :=
  c.service.stopped = true → ∀ i ∈ c.invokers, ∀ id ended, i.phase = .waiting id ended →
    i.finds c.service id ≠ .ok none

/-- The service has not stopped before the builds that are waited for had their results; or nobody
    holds a handle to it. -/
def Settled (c : Crew) : Prop :=
  c.service.stopped = true → 0 < c.service.handles → ∀ i ∈ c.invokers, ∀ id ended,
    i.phase = .waiting id ended → id ∈ completedIds c.service.session.events.log

/-- No listener can lose a notification if the bus keeps all there were. -/
def Brief (c : Crew) : Prop :=
  c.service.session.events.log.length ≤ eventCapacity

theorem Attuned.brief {c : Crew} (h : Attuned c) (few : 2 * c.invokers.length ≤ eventCapacity) :
    Brief c := by
  have told := h.told
  unfold Brief
  unfold Service.told Session.tellings at told
  omega

theorem Attuned.kept {c : Crew} (h : Attuned c) (brief : Brief c) (cursor : Cursor) :
    c.service.session.events.channel.behind cursor ≤ c.service.session.events.channel.ring := by
  rw [h.ring]
  exact Nat.le_trans (Nat.sub_le _ _) brief

/-- The bus of a service that has stopped ends when nobody holds a handle any more. -/
theorem Attuned.finds_of_released {c : Crew} (h : Attuned c) (brief : Brief c) (i : Invoker)
    (id : BuildId) (stopped : c.service.stopped = true) (released : c.service.handles = 0) :
    i.finds c.service id ≠ .ok none := by
  have bus : c.service.bus = c.service.session.events.close := by
    unfold Service.bus
    rw [stopped, released]
    rfl
  have kept : c.service.session.events.close.channel.behind i.listener ≤
      c.service.session.events.close.channel.ring := h.kept brief i.listener
  rw [Invoker.finds, bus, EventBus.completionOf_of_closed rfl id kept]
  split <;> simp

section

variable {c : Crew} (h : Attuned c) (brief : Brief c) {i : Invoker} (mem : i ∈ c.invokers)
  {id : BuildId} {ended : ToolEnd} (waits : i.phase = .waiting id ended)

include h mem waits

/-- The result of a build that is waited for is unread, once it is there. -/
theorem Attuned.find?_unread :
    (c.service.session.events.channel.unread i.listener).find? (fun n => n.completes id) = none ↔
      id ∉ completedIds c.service.session.events.log := by
  have owns := h.honest.owner i mem id (by rw [waits]; rfl)
  have earlier := h.earlier i mem (by rw [Invoker.isBusy, waits]) id owns
  rw [List.find?_eq_none]
  constructor
  · intro none_ there
    obtain ⟨n, told, completes⟩ := List.mem_filterMap.mp there
    have completes' := Notification.completes_iff.mpr completes
    rw [← List.take_append_drop i.listener.next c.service.session.events.log] at told
    rcases List.mem_append.mp told with before | unread
    · have less := earlier n before
      rw [Notification.buildId_of_completedId? completes] at less
      exact Nat.lt_irrefl _ less
    · exact none_ n unread completes'
  · intro never n unread completes
    exact never (List.mem_filterMap.mpr
      ⟨n, List.mem_of_mem_drop unread, Notification.completes_iff.mp completes⟩)

include brief

/-- While anyone holds a handle, nothing is found exactly if there is no result. -/
theorem Attuned.finds_of_held (held : 0 < c.service.handles) :
    i.finds c.service id = .ok none ↔ id ∉ completedIds c.service.session.events.log := by
  have bus : c.service.bus = c.service.session.events := by
    unfold Service.bus
    rw [if_neg]
    simp [Nat.ne_of_gt held]
  rw [Invoker.finds, bus, EventBus.completionOf_of_kept h.booked.isOpen id (h.kept brief _),
    ← h.find?_unread mem waits, Except.ok.injEq]

/-- An invoker whose build has no result can do nothing. -/
theorem Attuned.step?_eq_none (never : id ∉ completedIds c.service.session.events.log)
    (first : OutputKind) : i.step? first c.service = none := by
  have found := EventBus.completionOf_of_kept h.booked.isOpen id
    (h.kept brief i.listener)
  rw [(h.find?_unread mem waits).mpr never] at found
  unfold Invoker.step?
  rw [waits]
  dsimp only
  unfold Invoker.takeResult?
  generalize c.service.session.events.completionOf id i.listener = answer at found
  obtain ⟨answer, cursor⟩ := answer
  cases found
  rfl

end

/-- Invokers are told of a stop exactly if it did not come before a result that they wait for. -/
theorem Attuned.told_iff {c : Crew} (h : Attuned c) (brief : Brief c) : Told c ↔ Settled c := by
  constructor
  · intro told stopped held i mem id ended waits
    by_contra never
    exact told stopped i mem id ended waits ((h.finds_of_held brief mem waits held).mpr never)
  · intro settled stopped i mem id ended waits
    rcases Nat.eq_zero_or_pos c.service.handles with released | held
    · exact h.finds_of_released brief i id stopped released
    · intro nothing
      exact (h.finds_of_held brief mem waits held).mp nothing
        (settled stopped held i mem id ended waits)

/-! ## For ever -/

/-- The service has stopped, and the invoker at that place waits for a build that has no result. -/
structure Stranded (c : Crew) (index : Nat) (i : Invoker) (id : BuildId) : Prop where
  stopped : c.service.stopped = true
  there : c.invokers[index]? = some i
  waits : ∃ ended, i.phase = .waiting id ended
  never : id ∉ completedIds c.service.session.events.log

theorem invokers_join? {c d : Crew} {request : BuildRequest} {command : ToolCommand}
    {launch : Launch} (h : c.join? request command launch = some d) :
    ∃ i, d.invokers = c.invokers ++ [i] := by
  obtain ⟨_, _, rfl⟩ := Option.map_eq_some_iff.mp h
  exact ⟨_, rfl⟩

/-- Whoever can do nothing stays as they are in every turn. -/
theorem there_turn {c : Crew} {index : Nat} {i : Invoker} (there : c.invokers[index]? = some i)
    (idle : ∀ first, i.step? first c.service = none) (t : Turn) :
    (c.turn t).invokers[index]? = some i := by
  rcases c.turn_cases t with same | possible
  · rw [same]
    exact there
  · generalize c.turn t = d at possible
    cases t with
    | join request command launch =>
      obtain ⟨j, joined⟩ := invokers_join? possible
      rw [joined, List.getElem?_append_left (List.getElem?_eq_some_iff.mp there).1]
      exact there
    | proceed other first =>
      obtain ⟨j, seat, step⟩ := Option.bind_eq_some_iff.mp possible
      obtain ⟨after, step, rfl⟩ := Option.map_eq_some_iff.mp step
      by_cases same : other = index
      · rw [same, there] at seat
        cases seat
        rw [idle first] at step
        cases step
      · exact (List.getElem?_set_ne same).trans there
    | elapse by_ =>
      unfold turn? elapse? at possible
      dsimp only at possible
      split at possible
      · cases possible
      · cases possible
        exact there
    | serve =>
      obtain ⟨v, _, rfl⟩ := Option.map_eq_some_iff.mp possible
      exact there
    | arrive target =>
      obtain ⟨v, _, rfl⟩ := Option.map_eq_some_iff.mp possible
      exact there
    | order o =>
      obtain ⟨v, _, rfl⟩ := Option.map_eq_some_iff.mp possible
      exact there
    | write chunk =>
      cases possible
      exact there
    | closeConsole =>
      cases possible
      exact there
    | release =>
      cases possible
      exact there

/-- A service that has stopped has no turns. -/
theorem turn_serve_of_stopped {c : Crew} (stopped : c.service.stopped = true) :
    c.turn .serve = c := by
  have idle : c.service.step? = none := by
    unfold Service.step?
    rw [if_pos stopped]
  simp only [turn, turn?, idle, Option.map_none, Option.getD_none]

/-- After the stop nothing is told any more, whoever does what. -/
theorem log_turn_of_stopped {c : Crew} (stopped : c.service.stopped = true) (t : Turn) :
    (c.turn t).service.session.events.log = c.service.session.events.log ∧
      (c.turn t).service.stopped = true := by
  by_cases served : t = .serve
  · subst served
    rw [turn_serve_of_stopped stopped]
    exact ⟨rfl, stopped⟩
  · obtain ⟨_, untold, _⟩ := (seats_turn c served).untold
    exact ⟨untold.log, untold.stopped.trans stopped⟩

theorem Stranded.turn {c : Crew} {index : Nat} {i : Invoker} {id : BuildId}
    (s : Stranded c index i id) (h : Attuned c) (brief : Brief c) (t : Turn) :
    Stranded (c.turn t) index i id ∧ Brief (c.turn t) := by
  obtain ⟨ended, waits⟩ := s.waits
  obtain ⟨log, stopped⟩ := log_turn_of_stopped s.stopped t
  have idle := h.step?_eq_none brief (List.mem_of_getElem? s.there) waits s.never
  refine ⟨⟨stopped, there_turn s.there idle t, s.waits, ?_⟩, ?_⟩
  · rw [log]
    exact s.never
  · unfold Brief
    rw [log]
    exact brief

theorem Stranded.run {c : Crew} {index : Nat} {i : Invoker} {id : BuildId}
    (s : Stranded c index i id) (h : Attuned c) (brief : Brief c) (more : List Turn) :
    Stranded (c.run more) index i id ∧ Attuned (c.run more) ∧ Brief (c.run more) := by
  induction more generalizing c with
  | nil => exact ⟨s, h, brief⟩
  | cons t more ih =>
    obtain ⟨stays, brief'⟩ := s.turn h brief t
    exact ih stays (h.turn t) brief'

/-- As long as anyone holds a handle, a stranded invoker finds nothing. -/
theorem Stranded.finds {c : Crew} {index : Nat} {i : Invoker} {id : BuildId}
    (s : Stranded c index i id) (h : Attuned c) (brief : Brief c)
    (held : 0 < c.service.handles) : i.finds c.service id = .ok none := by
  obtain ⟨ended, waits⟩ := s.waits
  exact (h.finds_of_held brief (List.mem_of_getElem? s.there) waits held).mpr s.never

/-! ## No configuration is safe -/

theorem handles_opening {c : Crew} (ready : Ready c) :
    (c.run opening).service.handles = c.service.handles := by
  have served : c.run opening = (c.turn _).turn .serve := rfl
  rw [served, turn_join ready, turn_serve_inbox (c := c.afterJoin _ _ _) ready.running
    ⟨ready.silent.isOpen, ready.silent.read⟩ ready.arrived rfl]
  rfl

/-- The turns in which a build is started and its end reported, and the service is stopped before
    the result is due. -/
def cutShort : List Turn :=
  opening ++ (reporting ++ [.serve, .order .shutdown, .serve])

/-- What is heard of a service does not change: nothing is published, and who has a handle keeps
    it. -/
structure Unheard (c d : Crew) : Prop where
  invokers : d.invokers = c.invokers
  handles : d.service.handles = c.service.handles
  log : d.service.session.events.log = c.service.session.events.log

theorem Unheard.trans {c d e : Crew} (h : Unheard c d) (h' : Unheard d e) : Unheard c e :=
  ⟨h'.invokers.trans h.invokers, h'.handles.trans h.handles, h'.log.trans h.log⟩

/-- A report that the service takes is not heard of outside. -/
theorem ready_serve_report {c : Crew} {ticket : Ticket} {succeeded : Bool} {said : String}
    (ready : Ready { c with service := { c.service with inbox := [] } })
    (reported : c.service.inbox = [(ticket, .buildComplete succeeded said)]) :
    Ready (c.turn .serve) ∧ Unheard c (c.turn .serve) := by
  obtain ⟨capture, console, events⟩ := c.service.session.onBuildComplete_keeps succeeded said
  have running : c.service.stopped = false := ready.running
  have silent : c.service.session.Silent := ready.silent
  have arrived : c.service.arrived = [] := ready.arrived
  rw [turn_serve_inbox running silent arrived reported]
  refine ⟨⟨ready.running, ready.arrived, rfl, ⟨?_, ?_⟩, ?_⟩, rfl, rfl, ?_⟩
  · exact (congrArg Channel.closed console).trans ready.silent.isOpen
  · intro cursor there
    have there : c.service.session.capture.subscription = some cursor :=
      (congrArg Capture.subscription capture).symm.trans there
    have sent := congrArg (fun console : Console => console.sent.length) console
    exact Nat.le_trans (Nat.le_of_eq sent) (ready.silent.read cursor there)
  · exact (congrArg (fun bus => bus.channel.closed) events).trans ready.listening
  · exact congrArg EventBus.log events

/-- Nor is it heard outside that the service stops. -/
theorem stopped_of_shutdown {c : Crew} (ready : Ready c) :
    (c.run [.order .shutdown, .serve]).service.stopped = true ∧
      Unheard c (c.run [.order .shutdown, .serve]) := by
  have ordered := turn_order ready .shutdown
  have all : c.run [.order .shutdown, .serve] = (c.turn (.order .shutdown)).turn .serve := rfl
  rw [all, ordered]
  generalize hd : ({ c with service := _, nextTicket := _, sent := _ } : Crew) = d
  have silent : d.service.session.Silent := by
    rw [← hd]
    exact ⟨ready.silent.isOpen, ready.silent.read⟩
  have served := turn_serve_inbox (c := d) (by rw [← hd]; exact ready.running) silent
    (by rw [← hd]; exact ready.arrived) (by rw [← hd])
  rw [served, ← hd]
  exact ⟨rfl, rfl, rfl, rfl⟩

section

variable (config : Config) (dialect : Dialect) (environment : Environment) {console : Console}
  (isOpen : console.closed = false) (located : Located)

include isOpen

/-- Whatever the configuration is, an invoker can be left waiting. -/
theorem exists_stranded :
    ∃ i id, Stranded
        ((Crew.new (Session.new config dialect environment console) located).run cutShort) 0 i id ∧
      ((Crew.new (Session.new config dialect environment console) located).run cutShort).invokers =
        [i] ∧
      0 < ((Crew.new (Session.new config dialect environment console) located).run
        cutShort).service.handles := by
  have joined := joined_opening config dialect environment isOpen located
  have attuned := attuned_run config dialect environment console located opening
  generalize hc : Crew.new (Session.new config dialect environment console) located = c at *
  have blank : c.invokers = [] ∧ c.service.replies = [] := by
    rw [← hc]
    exact ⟨rfl, rfl⟩
  have held : (c.run opening).service.handles = 1 := by
    rw [← hc]
    exact handles_opening ⟨rfl, rfl, rfl, ⟨isOpen, nofun⟩, rfl⟩
  rw [cutShort, run_append, run_append]
  generalize c.run opening = d at joined attuned held
  obtain ⟨i, invokers, phase, ticket, launch⟩ := joined.invokers
  rw [blank.1, List.nil_append] at invokers
  have owns : d.Owns i.ticket (c.service.session.lastId + 1) := by
    unfold Owns Service.reply?
    rw [joined.replies, blank.2, ticket]
    exact List.lookup_cons_self
  have reported := run_reporting joined.ready invokers phase launch owns
  generalize d.run reporting = e at reported
  have ready : Ready { e with service := { e.service with inbox := [] } } := by
    rw [reported]
    exact ⟨joined.ready.running, joined.ready.arrived, rfl, joined.ready.silent,
      joined.ready.listening⟩
  have waiting : e.service.inbox = [(i.ticket, .buildComplete true "")] := by rw [reported]
  obtain ⟨ready', taken⟩ := ready_serve_report ready waiting
  obtain ⟨stopped, silently⟩ := stopped_of_shutdown ready'
  have unheard := taken.trans silently
  have all : e.run [.serve, .order .shutdown, .serve] =
      (e.turn .serve).run [.order .shutdown, .serve] := rfl
  have seat : e.invokers =
      [{ i with phase := .waiting (c.service.session.lastId + 1) muteEnd }] := by
    rw [reported]
  have log : e.service.session.events.log = d.service.session.events.log := by rw [reported]
  have handles : e.service.handles = d.service.handles := by rw [reported]
  rw [all]
  refine ⟨_, _, ⟨stopped, ?_, ⟨muteEnd, rfl⟩, ?_⟩, unheard.invokers.trans seat, ?_⟩
  · rw [unheard.invokers, seat]
    rfl
  · rw [unheard.log, log]
    obtain ⟨build, active, number, _⟩ := joined.active
    refine attuned.booked.current_not_completed ?_
    rw [Session.currentBuild?_of_active active, number]
  · rw [unheard.handles, handles, held]
    exact Nat.one_pos

end

/-- In a run of a new crew in which the bus keeps whatever is told, invokers are told of the stop of
    the service exactly if it did not come before a result that they wait for.  An invoker that is
    not told finds nothing for ever, as long as anyone holds a handle.  On an open console, no
    configuration is safe from that. -/
theorem told_iff_settled (config : Config) (dialect : Dialect) (environment : Environment)
    (console : Console) (located : Located) :
    (∀ turns c, (Crew.new (Session.new config dialect environment console) located).run turns = c →
      2 * c.invokers.length ≤ eventCapacity →
      (Told c ↔ Settled c) ∧
        ∀ index i id, Stranded c index i id → ∀ more, 0 < (c.run more).service.handles →
          (c.run more).invokers[index]? = some i ∧
            i.finds (c.run more).service id = .ok none ∧
            ∀ first, i.step? first (c.run more).service = none) ∧
      (console.closed = false →
        ∃ turns c, (Crew.new (Session.new config dialect environment console) located).run turns =
          c ∧ c.invokers.length = 1 ∧ 0 < c.service.handles ∧ ∃ i id, Stranded c 0 i id) := by
  constructor
  · rintro turns c rfl few
    have attuned := attuned_run config dialect environment console located turns
    have brief := attuned.brief few
    refine ⟨attuned.told_iff brief, ?_⟩
    intro index i id stranded more held
    obtain ⟨stays, attuned', brief'⟩ := stranded.run attuned brief more
    obtain ⟨ended, waits⟩ := stays.waits
    exact ⟨stays.there, stays.finds attuned' brief' held,
      attuned'.step?_eq_none brief' (List.mem_of_getElem? stays.there) waits stays.never⟩
  · intro isOpen
    obtain ⟨i, id, stranded, alone, held⟩ :=
      exists_stranded config dialect environment isOpen located
    exact ⟨cutShort, _, rfl, by rw [alone]; rfl, held, i, id, stranded⟩

/-- A tool ends, its invoker reports that, and the service is told to stop before the result is
    due. -/
def hasty : List Turn :=
  [asks "/proj/a.c" "done" 0, .serve, .proceed 0 .normal, .proceed 0 .normal, .proceed 0 .normal,
    .proceed 0 .normal, .serve, .serve, .order .shutdown, .serve]

theorem stranded_hasty : ∃ i, Stranded (patient.run hasty) 0 i 1 := by
  have waits : ((patient.run hasty).invokers[0]?.any
      fun i => i.phase.build? = some 1 && !i.phase.owesReport) = true := by
    decide +kernel
  cases there : (patient.run hasty).invokers[0]? with
  | none =>
    rw [there] at waits
    cases waits
  | some i =>
    rw [there, Option.any_some] at waits
    refine ⟨i, by decide +kernel, there, ?_, by decide +kernel⟩
    obtain ⟨_, _, _, _, phase⟩ := i
    cases phase with
    | waiting id ended =>
      simp only [InvokerPhase.build?, Option.some.injEq, Bool.and_eq_true, decide_eq_true_eq]
        at waits
      exact ⟨ended, by rw [waits.1]⟩
    | running id tool => simp [InvokerPhase.owesReport] at waits
    | reporting id ended => simp [InvokerPhase.owesReport] at waits
    | _ => cases waits

theorem attuned_hasty : Attuned (patient.run hasty) ∧ Brief (patient.run hasty) :=
  ⟨attuned_run _ _ _ _ _ hasty, by unfold Brief; decide +kernel⟩

/-- The service has stopped and a handle is held, but the invoker is not told. -/
theorem not_told_hasty : ¬ Told (patient.run hasty) := by
  obtain ⟨i, stranded⟩ := stranded_hasty
  obtain ⟨ended, waits⟩ := stranded.waits
  obtain ⟨attuned, brief⟩ := attuned_hasty
  intro told
  exact told stranded.stopped i (List.mem_of_getElem? stranded.there) 1 ended waits
    (stranded.finds attuned brief (by decide +kernel))

/-- Nor is it told later, when somebody asks for a reset and an hour has gone by. -/
theorem hasty_waits :
    (∃ i, ((patient.run hasty).run
        [.order .reset, .serve, .elapse (Duration.ofSecs 3600)]).invokers[0]? = some i ∧
      i.finds ((patient.run hasty).run
        [.order .reset, .serve, .elapse (Duration.ofSecs 3600)]).service 1 = .ok none) ∧
      ∃ turns c, patient.run turns = c ∧ c.invokers.length = 1 ∧ 0 < c.service.handles ∧
        ∃ i id, Stranded c 0 i id := by
  obtain ⟨i, stranded⟩ := stranded_hasty
  have both := told_iff_settled { Config.default none with watchdogTimeoutSecs := 0 } .gcc
    Environment.empty (Channel.new consoleCapacity) (.ok [])
  obtain ⟨there, finds, _⟩ := (both.1 hasty _ rfl (by decide +kernel)).2 0 i 1 stranded
    [.order .reset, .serve, .elapse (Duration.ofSecs 3600)] (by decide +kernel)
  exact ⟨⟨i, there, finds⟩, both.2 rfl⟩

end Crew

end BuildSupervisor
