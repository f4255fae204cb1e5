import BuildSupervisor.Proofs.Service.Traffic
import BuildSupervisor.Proofs.Session.Lifecycle
import BuildSupervisor.Proofs.Session.Restoration
/-!
# A service refines its session

However commands, chunks and put-off tasks come to a service, what it does is a run of calls to a
plain session, which `Traffic.Refines` compares with it: the commands are handled in the order in
which they were sent, and what others see of the service is what the plain session shows.  Left
alone it comes to an end of its commands, or stops; once it has stopped, it is at rest for ever.
-/

namespace BuildSupervisor

/-- The replies of a plain session on which the calls of a journal are made. -/
def Session.repliesTo (s : Session) : List Entry → List (Ticket × Reply)
  | [] => []
  | e :: es => (e.reply? s).toList ++ (s.run e.calls).repliesTo es

theorem Session.repliesTo_concat (s : Session) (journal : List Entry) (e : Entry) :
    s.repliesTo (journal ++ [e]) =
      s.repliesTo journal ++ (e.reply? (s.run (journal.flatMap Entry.calls))).toList := by
  induction journal generalizing s with
  | nil => exact List.append_nil _
  | cons first journal ih =>
    rw [List.cons_append, repliesTo, ih, repliesTo, List.flatMap_cons, run_append,
      List.append_assoc]

theorem Session.tickets_repliesTo (s : Session) (journal : List Entry) :
    (s.repliesTo journal).map Prod.fst =
      ((journal.filterMap Entry.taken?).filter fun m => m.2.isAnswered).map Prod.fst := by
  induction journal generalizing s with
  | nil => rfl
  | cons e journal ih =>
    rw [repliesTo, List.map_append, ih, e.isAnswered_of_reply? s, List.filterMap_cons]
    cases e.taken? with
    | none => rfl
    | some m =>
      rw [Option.toList_some, ← List.map_append, ← List.filter_append]
      rfl

namespace Traffic

/-- In the course of the journal, the build was taken up when `n` chunks had been written. -/
def TakenUpAt (first : Session) (journal : List Entry) (id : BuildId) (n : Nat) : Prop :=
  ∃ before e after ticket, journal = before ++ e :: after ∧
    e.reply? (first.run (before.flatMap Entry.calls)) =
      some (ticket, .started (.ok (.accepted id))) ∧
    (first.run (before.flatMap Entry.calls)).console.sent.length = n

theorem TakenUpAt.concat {first : Session} {journal : List Entry} {id : BuildId} {n : Nat}
    (h : TakenUpAt first journal id n) (e : Entry) : TakenUpAt first (journal ++ [e]) id n := by
  obtain ⟨before, start, after, ticket, rfl, accepted, length⟩ := h
  refine ⟨before, start, after ++ [e], ticket, ?_, accepted, length⟩
  rw [List.append_assoc, List.cons_append]

/-- What a service does is what a plain session does, of which the calls are asked that it makes. -/
structure Refines (first : Session) (t : Traffic) : Prop where
  /-- The calls make a run of the plain session, which comes to the same notifications, the same
      environment, console and build at hand. -/
  session : (first.run t.calls).SameButSchedule t.service.session
  /-- Commands are handled in the order in which they were sent; as long as the service runs, the
      others wait in that order. -/
  order : ∃ left, t.sent = t.handled ++ left ∧
    t.service.inbox = if t.service.stopped then [] else left
  distinct : (t.sent.map Prod.fst).Nodup
  /-- The replies are those of the plain session. -/
  replies : t.service.replies = first.repliesTo t.journal
  /-- Each command that waits for a reply has got one when it was handled, and no other has. -/
  answered : t.service.replies.map Prod.fst =
    (t.handled.filter fun m => m.2.isAnswered).map Prod.fst
  /-- A command leaves the inbox only in a turn in which no task has arrived, and no chunk can be
      read; then none is unread, on a console that can keep any. -/
  attentive : ∀ w, t.service.step? = some w → w.inbox ≠ t.service.inbox →
    t.service.arrived = [] ∧
      t.service.session.capture.readable t.service.session.console = [] ∧
      (0 < t.service.session.console.ring →
        t.service.session.capture.waiting t.service.session.console = [])
  /-- What is gathered for a build, and what will be once the console is drained for its result, are
      texts of chunks written since it was taken up, none of them twice and all in order. -/
  gathered : ∀ build, t.service.session.active = some build → ∃ n,
    TakenUpAt first t.journal build.id n ∧ t.service.session.GathersFrom n ∧
      t.service.session.drainConsole.2.GathersFrom n
  /-- The tasks that the plain session puts off are those that have been done, have arrived or are
      still to come; so none is done twice, and none is lost unless the service has stopped. -/
  tasks : ∃ lost,
    (first.run t.calls).schedule.actions.Perm (t.done ++ t.service.putOff ++ lost) ∧
      (t.service.stopped = false → lost = [])
  /-- The service stops where it is told to, or nobody holds a handle. -/
  stopped : t.service.stopped = true ↔ ∃ e ∈ t.journal, e.ends = true

theorem handled_concat (t : Traffic) (w : Service) (e : Entry) :
    (Traffic.mk w t.sent (t.journal ++ [e])).handled = t.handled ++ e.taken?.toList := by
  rw [handled, handled, List.filterMap_append, List.filterMap_cons]
  cases e.taken? <;> rfl

theorem done_concat (t : Traffic) (w : Service) (e : Entry) :
    (Traffic.mk w t.sent (t.journal ++ [e])).done = t.done ++ e.done?.toList := by
  rw [done, done, List.filterMap_append, List.filterMap_cons]
  cases e.done? <;> rfl

/-- The calls of an entry come behind those that were made before. -/
theorem run_concat (first : Session) (t : Traffic) (w : Service) (e : Entry) :
    first.run (Traffic.mk w t.sent (t.journal ++ [e])).calls = (first.run t.calls).run e.calls := by
  rw [calls, List.flatMap_append, Session.run_append, List.flatMap_singleton]
  rfl

/-- What every happening keeps of a service with its history. -/
structure Kept (first : Session) (t : Traffic) : Prop where
  session : (first.run t.calls).SameButSchedule t.service.session
  order : ∃ left, t.sent = t.handled ++ left ∧
    t.service.inbox = if t.service.stopped then [] else left
  /-- Tickets are given out in order. -/
  tickets : t.sent.map Prod.fst = List.range t.sent.length
  replies : t.service.replies = first.repliesTo t.journal
  reads : ∀ build, t.service.session.active = some build → ∃ n,
    TakenUpAt first t.journal build.id n ∧ t.service.session.ReadsFrom n
  tasks : ∃ lost,
    (first.run t.calls).schedule.actions.Perm (t.done ++ t.service.putOff ++ lost) ∧
      (t.service.stopped = false → lost = [])
  stopped : t.service.stopped = true ↔ ∃ e ∈ t.journal, e.ends = true
  rest : t.service.stopped = true → t.service.session.active = none

theorem kept_new {first : Session} (rest : first.active = none) (located : Located) :
    Kept first (new first located) where
  session := .refl first
  order := ⟨[], rfl, rfl⟩
  tickets := rfl
  replies := rfl
  reads build active := by
    rw [show (new first located).service.session.active = none from rest] at active
    cases active
  tasks := ⟨[], by rw [List.append_nil]; exact .refl _, fun _ => rfl⟩
  stopped := ⟨nofun, by rintro ⟨e, mem, _⟩; cases mem⟩
  rest := nofun

namespace Kept

variable {first : Session} {t : Traffic} (h : Kept first t)

include h

theorem noted {e : Entry} {w : Service} (noted : t.service.Noted e w) :
    Kept first ⟨w, t.sent, t.journal ++ [e]⟩ where
  session := by
    rw [run_concat]
    exact (h.session.run e.timeless_calls).same.trans noted.session
  order := by
    obtain ⟨left, sent, inbox⟩ := h.order
    obtain ⟨left', first', inbox'⟩ := noted.inbox
    rw [handled_concat]
    dsimp only
    rw [noted.stopped]
    cases running : t.service.stopped with
    | true =>
      rw [(noted.idle running).1, Option.toList_none] at first' ⊢
      rw [running, if_pos rfl, first', List.nil_append] at inbox
      refine ⟨left, by rw [List.append_nil, sent], ?_⟩
      rw [inbox', inbox]
      split <;> rfl
    | false =>
      rw [running, if_neg Bool.false_ne_true, first'] at inbox
      exact ⟨left', by rw [sent, ← inbox, List.append_assoc], by rw [inbox', Bool.false_or]⟩
  tickets := h.tickets
  replies := by
    rw [Session.repliesTo_concat, noted.replies, h.replies, e.reply?_of_same h.session]
    rfl
  reads build active := by
    rcases noted.reads build active with ⟨before, there, same, reads⟩ | ⟨ticket, accepted, reads⟩
    · obtain ⟨n, taken, reading⟩ := h.reads before there
      exact ⟨n, same ▸ taken.concat e, reads n reading⟩
    · rw [e.reply?_of_same h.session] at accepted
      obtain ⟨_, same⟩ := h.session
      refine ⟨_, ⟨t.journal, e, [], ticket, rfl, accepted, ?_⟩, reads⟩
      rw [same]
      rfl
  tasks := by
    obtain ⟨lost, all, none_⟩ := h.tasks
    obtain ⟨new, plain, actual⟩ := (h.session.run e.timeless_calls).puts
    obtain ⟨left, arrived, arrived'⟩ := noted.arrived
    rw [← noted.actions] at actual
    refine ⟨(if e.ends then left else []) ++ lost, ?_, ?_⟩
    · rw [run_concat, done_concat]
      simp only [Service.putOff, arrived, List.perm_iff_count, List.count_append] at all plain actual ⊢
      intro task
      have all := all task
      have plain := plain task
      have actual := actual task
      rw [arrived']
      split <;> simp only [List.count_nil] <;> omega
    · intro running
      rw [noted.stopped, Bool.or_eq_false_iff] at running
      rw [running.2, none_ running.1]
      rfl
  stopped := by
    rw [noted.stopped, Bool.or_eq_true, h.stopped]
    simp only [List.mem_append, List.mem_singleton, or_and_right, exists_or, exists_eq_left]
  rest stopped := by
    rw [noted.stopped, Bool.or_eq_true] at stopped
    rcases stopped with before | ends
    · exact (noted.idle before).2.active.trans (h.rest before)
    · rw [noted.rests ends]
      rfl

theorem sent (command : Command) (running : t.service.stopped = false) :
    Kept first
      { t with
        service := { t.service with
          inbox := t.service.inbox ++ [(t.sent.length, command)] }
        sent := t.sent ++ [(t.sent.length, command)] } where
  session := h.session
  order := by
    obtain ⟨left, sent, inbox⟩ := h.order
    rw [running] at inbox
    refine ⟨left ++ [(t.sent.length, command)], ?_, ?_⟩
    · rw [sent, List.append_assoc]
      rfl
    · dsimp only
      rw [inbox, running]
      rfl
  tickets := by
    rw [List.map_append, h.tickets, List.length_append, List.length_singleton, List.range_succ]
    rfl
  replies := h.replies
  reads := h.reads
  tasks := h.tasks
  stopped := h.stopped
  rest := h.rest

theorem aside {w : Service} (aside : Aside t.service w) : Kept first (t.withService w) where
  session := h.session.trans aside.session
  order := by
    obtain ⟨left, sent, inbox⟩ := h.order
    exact ⟨left, sent, by rw [withService, aside.inbox, aside.stopped, inbox]⟩
  tickets := h.tickets
  replies := aside.replies.trans h.replies
  reads build active := by
    obtain ⟨n, taken, reads⟩ := h.reads build (aside.session.active.symm.trans active)
    exact ⟨n, taken, reads.of_same aside.session⟩
  tasks := by
    obtain ⟨lost, all, none_⟩ := h.tasks
    obtain ⟨lost', moved, none_'⟩ := aside.tasks
    refine ⟨lost' ++ lost, ?_, ?_⟩
    · change (first.run t.calls).schedule.actions.Perm (t.done ++ w.putOff ++ _)
      refine all.trans ?_
      rw [List.append_assoc, List.append_assoc, ← List.append_assoc w.putOff]
      exact (moved.append_right lost).append_left t.done
    · intro running
      have running : t.service.stopped = false := aside.stopped.symm.trans running
      rw [none_ running, none_' running, List.append_nil]
  stopped := by
    rw [withService, aside.stopped]
    exact h.stopped
  rest stopped := aside.session.active.trans (h.rest (aside.stopped.symm.trans stopped))

theorem meet (happening : Happening) : Kept first (t.meet happening) := by
  have meets := t.meets happening
  generalize t.meet happening = u at meets ⊢
  cases meets with
  | noted noted => exact h.noted noted
  | sent command running => exact h.sent command running
  | aside aside => exact h.aside aside

theorem run (happenings : List Happening) : Kept first (t.run happenings) := by
  induction happenings generalizing t with
  | nil => exact h
  | cons happening happenings ih => exact ih (h.meet happening)

theorem refines : Refines first t where
  session := h.session
  order := h.order
  distinct := h.tickets ▸ List.nodup_range
  replies := h.replies
  tasks := h.tasks
  answered := by rw [h.replies, Session.tickets_repliesTo, handled]
  attentive w step taken := by
    obtain ⟨_, e, _, enters⟩ := Service.enters_of_step step
    obtain ⟨arrived, read⟩ := enters.attentive taken
    exact ⟨arrived, read, fun ring => Capture.waiting_of_readable ring read⟩
  gathered build active := by
    obtain ⟨n, taken, reads⟩ := h.reads build active
    exact ⟨n, taken, reads.gathers, reads.drain.gathers⟩
  stopped := h.stopped

end Kept

/-! ## After the end -/

/-- The service has stopped, and that is for ever. -/
structure Over (first : Session) (t : Traffic) : Prop where
  status : t.service.session.status = ⟨.idle, none, none⟩
  environment : t.service.session.environment = first.environment
  /-- No command is taken in any more. -/
  refused : ∀ ticket command, t.service.call ticket command = .error .stopped
  /-- Whoever waits for the reply to a command that was never handled learns that. -/
  unanswered : ∀ m ∈ t.sent, m ∉ t.handled → t.service.answer? m.1 = some (.error .stopped)

/-- The service has stopped, and nothing that it is seen by has changed since. -/
structure Unchanged (t u : Traffic) : Prop where
  stopped : u.service.stopped = true
  log : u.service.session.events.log = t.service.session.events.log
  handled : u.handled = t.handled
  sent : u.sent = t.sent
  replies : u.service.replies = t.service.replies

theorem Unchanged.trans {t u w : Traffic} (h : Unchanged t u) (h' : Unchanged u w) :
    Unchanged t w :=
  ⟨h'.stopped, h'.log.trans h.log, h'.handled.trans h.handled, h'.sent.trans h.sent,
    h'.replies.trans h.replies⟩

theorem unchanged_meet {t : Traffic} (stopped : t.service.stopped = true)
    (happening : Happening) : Unchanged t (t.meet happening) := by
  have meets := t.meets happening
  generalize t.meet happening = u at meets ⊢
  cases meets with
  | @noted e w noted =>
    obtain ⟨nothing, books⟩ := noted.idle stopped
    refine ⟨?_, congrArg EventBus.log books.events, ?_, rfl, ?_⟩
    · rw [noted.stopped, stopped, Bool.true_or]
    · rw [handled_concat, nothing, Option.toList_none, List.append_nil]
    · rw [noted.replies, Entry.reply?_of_taken? nothing, Option.toList_none, List.append_nil]
  | sent command running =>
    rw [stopped] at running
    cases running
  | aside aside =>
    obtain ⟨_, same⟩ := aside.session
    refine ⟨aside.stopped.trans stopped, ?_, rfl, rfl, aside.replies⟩
    rw [withService, same]

theorem unchanged_run {t : Traffic} (stopped : t.service.stopped = true)
    (happenings : List Happening) : Unchanged t (t.run happenings) := by
  induction happenings generalizing t with
  | nil => exact ⟨stopped, rfl, rfl, rfl, rfl⟩
  | cons happening happenings ih =>
    have first := unchanged_meet stopped happening
    exact first.trans (ih first.stopped)

theorem Kept.isOver {first : Session} {t : Traffic} (h : Kept first t) (rest : first.active = none)
    (stopped : t.service.stopped = true) : Over first t where
  status := by
    rw [Session.status, Session.state, Session.currentBuild?, h.rest stopped]
    rfl
  environment := by
    have restorable := Session.restorable_run rest t.calls
    have idle := h.session.active.symm.trans (h.rest stopped)
    obtain ⟨_, same⟩ := h.session
    rw [same, ← restorable.undone, Session.reset_environment_of_rest idle]
  refused ticket command := by
    rw [Service.call, Service.send?, if_pos stopped]
  unanswered m mem missed := by
    have none_ : t.service.reply? m.1 = none := by
      obtain ⟨left, sent, _⟩ := h.order
      have distinct : (t.sent.map Prod.fst).Nodup := h.refines.distinct
      rw [sent, List.map_append, List.nodup_append] at distinct
      rw [sent, List.mem_append] at mem
      have waits : m.1 ∈ left.map Prod.fst := List.mem_map_of_mem (mem.resolve_left missed)
      refine List.lookup_eq_none_iff.mpr fun answer given => bne_iff_ne.mpr fun same => ?_
      have known := List.mem_map_of_mem (f := Prod.fst) given
      rw [h.refines.answered] at known
      have handled := (List.filter_sublist.map Prod.fst).subset known
      exact distinct.2.2 _ handled m.1 waits same.symm
    rw [Service.answer?, none_, if_pos stopped]

/-- What is known of a turn in which a service stops. -/
structure Stops (t u : Traffic) : Prop where
  /-- It was told to, or nobody holds a handle and no command waits. -/
  cause : (∃ ticket rest, t.service.inbox = (ticket, .shutdown) :: rest) ∨
    t.service.handles = 0 ∧ t.service.inbox = []
  /-- The build at hand never gets a result. -/
  abandoned : ∀ id, t.service.session.currentBuild? = some id → ∀ more,
    id ∉ completedIds (u.run more).service.session.events.log

theorem Kept.stops {first : Session} {t : Traffic} (h : Kept first t) (booked : first.Booked)
    (running : t.service.stopped = false) {happening : Happening}
    (stopped : (t.meet happening).service.stopped = true) : Stops t (t.meet happening) := by
  have meets := t.meets happening
  generalize t.meet happening = u at meets stopped ⊢
  cases meets with
  | @noted e w noted =>
    have ends : e.ends = true := by
      rwa [noted.stopped, running, Bool.false_or] at stopped
    refine ⟨noted.cause ends, ?_⟩
    intro id current more
    have booked := (Session.booked_run booked t.calls).of_sameBooks h.session.sameBooks
    have log : w.session.events.log = t.service.session.events.log := by
      rw [noted.rests ends]
      rfl
    rw [(unchanged_run stopped more).log, log]
    exact booked.current_not_completed current
  | sent command _ =>
    rw [running] at stopped
    cases stopped
  | aside aside =>
    rw [withService, aside.stopped, running] at stopped
    cases stopped

/-! ## Left alone -/

/-- The service waits, and has handled what it had been sent; somebody holds a handle. -/
structure CaughtUp (t u : Traffic) : Prop where
  handled : u.handled = t.sent
  arrived : u.service.arrived = []
  read : u.service.session.capture.readable u.service.session.console = []
  held : 0 < u.service.handles

theorem meet_serve {t : Traffic} {w : Service} (h : t.service.step? = some w) :
    t.meet .serve = { t with service := w, journal := t.journal ++ t.service.entry?.toList } := by
  rw [meet, h]

/-- There are no more turns than the arrears of a service allow. -/
theorem exists_waits (t : Traffic) : ∃ n,
    (t.run (List.replicate n .serve)).service.step? = none ∧
      (t.run (List.replicate n .serve)).sent = t.sent := by
  cases step : t.service.step? with
  | none => exact ⟨0, step, rfl⟩
  | some w =>
    have met := meet_serve step
    obtain ⟨n, waits, sent⟩ := exists_waits (t.meet .serve)
    exact ⟨n + 1, waits, sent.trans (by rw [met])⟩
termination_by t.service.arrears
decreasing_by
  rw [met]
  exact Service.arrears_step step

theorem Kept.caughtUp {first : Session} {t u : Traffic} (h : Kept first u)
    (sent : u.sent = t.sent) (waits : u.service.step? = none)
    (running : u.service.stopped = false) : CaughtUp t u := by
  rcases Service.waits_of_step waits with stopped | ⟨quiet, arrived, inbox, held⟩
  · rw [running] at stopped
    cases stopped
  · obtain ⟨left, all, inbox'⟩ := h.order
    rw [running, if_neg Bool.false_ne_true, inbox] at inbox'
    refine ⟨?_, arrived, Capture.readable_of_next quiet, held⟩
    rw [← sent, all, ← inbox', List.append_nil]

/-- All that is said of a service with its history: it refines its session and goes through all that
    it is sent, and once it has stopped that is for ever. -/
structure Faithful (first : Session) (t : Traffic) : Prop where
  refines : Refines first t
  /-- Left alone, the service stops, or handles all commands and waits. -/
  progress : ∃ n u, t.run (List.replicate n .serve) = u ∧
    (u.service.stopped = true ∨ CaughtUp t u)
  ended : t.service.stopped = true → ∀ more, Over first (t.run more) ∧ Unchanged t (t.run more)
  stops : t.service.stopped = false → ∀ happening,
    (t.meet happening).service.stopped = true → Stops t (t.meet happening)

/-- Whatever happens to a new service, in whatever order, it refines its session. -/
theorem faithful_new (config : Config) (dialect : Dialect) (environment : Environment)
    (console : Console) (located : Located) (happenings : List Happening) :
    Faithful (Session.new config dialect environment console)
      ((new (Session.new config dialect environment console) located).run happenings) := by
  have booked := Session.booked_new config dialect environment console
  generalize hs : Session.new config dialect environment console = first at booked ⊢
  have rest : first.active = none := by rw [← hs]; rfl
  have kept := (kept_new rest located).run happenings
  refine ⟨kept.refines, ?_, ?_, fun running _ stopped => kept.stops booked running stopped⟩
  · obtain ⟨n, waits, sent⟩ := exists_waits ((new first located).run happenings)
    refine ⟨n, _, rfl, ?_⟩
    rw [or_iff_not_imp_left, Bool.not_eq_true]
    exact (kept.run _).caughtUp sent waits
  · intro stopped more
    have unchanged := unchanged_run stopped more
    exact ⟨(kept.run more).isOver rest unchanged.stopped, unchanged⟩

/-- A command that waits when the service is told to stop is not handled any more. -/
example :
    let t := (new (Session.new (Config.default none) .gcc Environment.empty
      (Channel.new consoleCapacity)) (.ok [])).run
        [.send (.start ⟨Path.ofText "/proj/x.c", false, false⟩), .serve, .write ⟨.normal, "ok"⟩,
          .send .shutdown, .send .status, .serve, .serve]
    t.service.stopped = true ∧ t.sent.map Prod.fst = [0, 1, 2] ∧
      t.handled.map Prod.fst = [0, 1] := by
  decide +kernel

end Traffic

end BuildSupervisor
