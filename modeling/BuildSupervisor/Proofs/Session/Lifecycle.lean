import BuildSupervisor.Proofs.Event.Chronicle
import BuildSupervisor.Proofs.Session.Effect
/-!
# The life of a build on the event bus

`Booked` ties the log of a session to the build it looks after: while there is one, the last
notification tells of its start.  Tasks that were put off for builds long gone need no invariant of
their own, since an effect that ends a build ends the one at hand.  `lifecycle_new` says what
follows for every run of a new session.
-/

namespace BuildSupervisor.Session

/-- The numbers of the builds that were accepted, in the order of the answers. -/
def acceptedIds (answers : List Answer) : List BuildId :=
  answers.filterMap Answer.newBuild?

/-- How many numbers were used up, by builds that were accepted and by starts that failed. -/
def numbersTaken (answers : List Answer) : Nat :=
  answers.countP Answer.takesNumber

/-- What a session has published fits what it knows of its builds. -/
structure Booked (s : Session) : Prop where
  isOpen : s.events.channel.closed = false
  published : s.events.published = s.events.log.length
  chronicle : Chronicle s.events.log
  bounded : ∀ n ∈ s.events.log, n.buildId ≤ s.lastId
  current : ∀ build, s.active = some build →
    s.events.log.getLast? = some ⟨s.events.log.length, build.id, .started⟩

theorem booked_new (config : Config) (dialect : Dialect) (environment : Environment)
    (console : Console) : Booked (Session.new config dialect environment console) where
  isOpen := rfl
  published := rfl
  chronicle := .nil
  bounded := by
    intro n mem
    cases mem
  current := by
    intro build active
    cases active

theorem Booked.of_sameBooks {s t : Session} (books : SameBooks s t) (h : Booked s) : Booked t where
  isOpen := by rw [books.events]; exact h.isOpen
  published := by rw [books.events]; exact h.published
  chronicle := by rw [books.events]; exact h.chronicle
  bounded := by rw [books.events, books.lastId]; exact h.bounded
  current := by rw [books.events, books.active]; exact h.current

theorem Booked.log_publish {s : Session} (h : Booked s) (id : BuildId) (event : Event) :
    (s.events.publish id event).log = s.events.log ++ [⟨s.events.log.length + 1, id, event⟩] := by
  rw [EventBus.log_publish h.isOpen, h.published]

theorem Booked.reset {s : Session} (h : Booked s) : Booked s.reset :=
  ⟨h.isOpen, h.published, h.chronicle, h.bounded, by intro build active; cases active⟩

/-- A build starts under a number that is greater than all before it. -/
theorem Booked.start {s : Session} (h : Booked s) (build : ActiveBuild)
    (fresh : build.id = s.lastId + 1) (environment : Environment) :
    Booked { s with
      active := some build
      lastId := s.lastId + 1
      events := s.events.publish (s.lastId + 1) .started
      environment := environment } where
  isOpen := by rw [EventBus.closed_publish]; exact h.isOpen
  published := by
    rw [h.log_publish, List.length_append, List.length_singleton, ← h.published]
    rfl
  chronicle := by
    rw [h.log_publish]
    exact .started _ h.chronicle fun n mem => Nat.lt_succ_of_le (h.bounded n mem)
  bounded := by
    rw [h.log_publish]
    intro n mem
    rcases List.mem_append.mp mem with earlier | last
    · exact Nat.le_succ_of_le (h.bounded n earlier)
    · cases List.mem_singleton.mp last
      exact Nat.le_refl _
  current := by
    intro other active
    cases active
    rw [h.log_publish, List.getLast?_concat, List.length_append, List.length_singleton, fresh]

/-- Only the build at hand ends, and its start was the last thing that was published. -/
theorem Booked.ended {s : Session} (h : Booked s) {build : ActiveBuild}
    (active : s.active = some build) (result : BuildResult) : Booked (s.ended build result) where
  isOpen := by
    rw [Session.ended, EventBus.closed_publish]
    exact h.isOpen
  published := by
    rw [Session.ended, h.log_publish, List.length_append, List.length_singleton, ← h.published]
    rfl
  chronicle := by
    rw [Session.ended, h.log_publish]
    exact .completed _ result h.chronicle (h.current build active)
  bounded := by
    rw [Session.ended, h.log_publish]
    intro n mem
    rcases List.mem_append.mp mem with earlier | last
    · exact h.bounded n earlier
    · rw [List.mem_singleton.mp last]
      exact h.bounded ⟨_, build.id, .started⟩ (List.mem_of_getLast? (h.current build active))
  current := by
    intro other there
    cases there

/-- Every operation keeps log and books together. -/
theorem Booked.apply {s t : Session} {op : Operation} {answer : Answer} (h : Booked s)
    (effect : Effect s op answer t) : Booked t := by
  cases effect with
  | kept _ _ _ books => exact h.of_sameBooks books
  | discarded books => exact h.reset.of_sameBooks books
  | aborted located request books =>
    refine Booked.of_sameBooks books ⟨h.isOpen, h.published, h.chronicle, ?_, ?_⟩
    · exact fun n mem => Nat.le_succ_of_le (h.bounded n mem)
    · intro build active
      cases active
  | accepted located request books => exact (h.start _ rfl _).of_sameBooks books
  | reported build succeeded said active _ books =>
    refine Booked.of_sameBooks books ⟨h.isOpen, h.published, h.chronicle, h.bounded, ?_⟩
    intro other there
    cases there
    exact h.current build active
  | ended build result active _ _ _ books => exact (h.ended active result).of_sameBooks books

theorem booked_run {s : Session} (h : Booked s) (ops : List Operation) : Booked (s.run ops) :=
  run_induction (P := fun _ t => Booked t) h (fun _ op t _ ih => ih.apply (effect_apply t op)) ops

/-! ## Answers and the log -/

/-- An operation publishes a start exactly for the build it accepts. -/
theorem startedIds_apply {s t : Session} {op : Operation} {answer : Answer} (h : Booked s)
    (effect : Effect s op answer t) :
    startedIds t.events.log = startedIds s.events.log ++ answer.newBuild?.toList := by
  cases effect with
  | kept _ quiet _ books => rw [books.events, quiet, Option.toList_none, List.append_nil]
  | discarded books => rw [books.events]; exact (List.append_nil _).symm
  | aborted located request books => rw [books.events]; exact (List.append_nil _).symm
  | accepted located request books =>
    rw [books.events, h.log_publish]
    exact startedIds_concat_started _ _ _
  | reported build succeeded said _ _ books => rw [books.events]; exact (List.append_nil _).symm
  | ended build result _ _ quiet _ books =>
    rw [books.events, Session.ended, h.log_publish, startedIds_concat_completed, quiet,
      Option.toList_none, List.append_nil]

/-- An operation that uses up a number takes the next one, and an accepted build has it. -/
theorem lastId_apply {s t : Session} {op : Operation} {answer : Answer}
    (effect : Effect s op answer t) :
    t.lastId = s.lastId + (if answer.takesNumber then 1 else 0) ∧
      ∀ id, answer.newBuild? = some id → id = s.lastId + 1 := by
  cases effect with
  | kept _ quiet free books =>
    refine ⟨by rw [books.lastId, free]; rfl, ?_⟩
    intro id accepted
    rw [quiet] at accepted
    cases accepted
  | discarded books => exact ⟨books.lastId, by intro id accepted; cases accepted⟩
  | aborted located request books => exact ⟨books.lastId, by intro id accepted; cases accepted⟩
  | accepted located request books =>
    refine ⟨books.lastId, ?_⟩
    intro id accepted
    exact (Option.some.inj accepted).symm
  | reported build succeeded said _ _ books =>
    exact ⟨books.lastId, by intro id accepted; cases accepted⟩
  | ended build result _ _ quiet free books =>
    refine ⟨by rw [books.lastId, free]; rfl, ?_⟩
    intro id accepted
    rw [quiet] at accepted
    cases accepted

theorem startedIds_run {s : Session} (h : Booked s) (ops : List Operation) :
    startedIds (s.run ops).events.log =
      startedIds s.events.log ++ acceptedIds (s.answers ops) := by
  induction ops generalizing s with
  | nil => exact (List.append_nil _).symm
  | cons op ops ih =>
    have effect := effect_apply s op
    have step := startedIds_apply h effect
    rw [run, ih (h.apply effect), step, List.append_assoc]
    cases new : (s.apply op).1.newBuild? <;> simp [acceptedIds, answers, new]

theorem lastId_run (s : Session) (ops : List Operation) :
    (s.run ops).lastId = s.lastId + numbersTaken (s.answers ops) := by
  induction ops generalizing s with
  | nil => rfl
  | cons op ops ih =>
    have step := (lastId_apply (effect_apply s op)).1
    rw [run, ih, step, answers, numbersTaken, numbersTaken, List.countP_cons, Nat.add_assoc]
    exact congrArg (s.lastId + ·) (Nat.add_comm _ _)

/-! ## Builds that are gone -/

/-- The session does not look after the build (any more). -/
structure Past (id : BuildId) (s : Session) : Prop where
  given : id ≤ s.lastId
  notCurrent : s.currentBuild? ≠ some id

/-- A build that the session does not look after (any more) and that has no result. -/
structure Gone (id : BuildId) (s : Session) : Prop extends Past id s where
  never : id ∉ completedIds s.events.log

/-- A number that was used up without a start. -/
structure Unstarted (id : BuildId) (s : Session) : Prop where
  given : id ≤ s.lastId
  never : id ∉ startedIds s.events.log

theorem Past.apply {id : BuildId} {s t : Session} {op : Operation} {answer : Answer}
    (past : Past id s) (effect : Effect s op answer t) : Past id t := by
  obtain ⟨given, notCurrent⟩ := past
  cases effect with
  | kept _ _ _ books =>
    refine ⟨by rw [books.lastId]; exact given, ?_⟩
    rw [currentBuild?, books.active]
    exact notCurrent
  | discarded books =>
    refine ⟨by rw [books.lastId]; exact given, ?_⟩
    rw [currentBuild?, books.active]
    exact nofun
  | aborted located request books =>
    refine ⟨by rw [books.lastId]; exact Nat.le_succ_of_le given, ?_⟩
    rw [currentBuild?, books.active]
    exact nofun
  | accepted located request books =>
    refine ⟨by rw [books.lastId]; exact Nat.le_succ_of_le given, ?_⟩
    rw [currentBuild?, books.active]
    intro same
    rw [← Option.some.inj same] at given
    exact Nat.not_succ_le_self _ given
  | reported build succeeded said active _ books =>
    refine ⟨by rw [books.lastId]; exact given, ?_⟩
    rw [currentBuild?, active] at notCurrent
    rw [currentBuild?, books.active]
    exact notCurrent
  | ended build result active _ _ _ books =>
    refine ⟨by rw [books.lastId]; exact given, ?_⟩
    rw [currentBuild?, books.active]
    exact nofun

theorem Gone.apply {id : BuildId} {s t : Session} {op : Operation} {answer : Answer}
    (h : Booked s) (gone : Gone id s) (effect : Effect s op answer t) : Gone id t := by
  refine ⟨gone.toPast.apply effect, ?_⟩
  have never := gone.never
  cases effect with
  | kept _ _ _ books => rw [books.events]; exact never
  | discarded books => rw [books.events]; exact never
  | aborted located request books => rw [books.events]; exact never
  | accepted located request books =>
    rw [books.events, h.log_publish, completedIds_concat_started]
    exact never
  | reported build succeeded said _ _ books => rw [books.events]; exact never
  | ended build result active _ _ _ books =>
    rw [books.events, Session.ended, h.log_publish, completedIds_concat_completed]
    intro mem
    rcases List.mem_append.mp mem with earlier | last
    · exact never earlier
    · apply gone.notCurrent
      rw [currentBuild?, active, List.mem_singleton.mp last]
      rfl

theorem Unstarted.apply {id : BuildId} {s t : Session} {op : Operation} {answer : Answer}
    (h : Booked s) (unstarted : Unstarted id s) (effect : Effect s op answer t) :
    Unstarted id t := by
  obtain ⟨counted, fresh⟩ := lastId_apply effect
  refine ⟨by rw [counted]; exact Nat.le_add_right_of_le unstarted.given, ?_⟩
  rw [startedIds_apply h effect]
  intro mem
  rcases List.mem_append.mp mem with earlier | new
  · exact unstarted.never earlier
  · have given := unstarted.given
    rw [fresh id (Option.mem_toList.mp new)] at given
    exact Nat.not_succ_le_self _ given

theorem past_run {id : BuildId} {s : Session} (past : Past id s) (ops : List Operation) :
    Past id (s.run ops) :=
  run_induction (P := fun _ t => Past id t) past
    (fun _ op t _ ih => ih.apply (effect_apply t op)) ops

theorem gone_run {id : BuildId} {s : Session} (h : Booked s) (gone : Gone id s)
    (ops : List Operation) : Gone id (s.run ops) :=
  (run_induction (P := fun _ t => Booked t ∧ Gone id t) ⟨h, gone⟩
    (fun _ op t _ ih => ⟨ih.1.apply (effect_apply t op), ih.2.apply ih.1 (effect_apply t op)⟩)
    ops).2

theorem unstarted_run {id : BuildId} {s : Session} (h : Booked s) (unstarted : Unstarted id s)
    (ops : List Operation) : Unstarted id (s.run ops) :=
  (run_induction (P := fun _ t => Booked t ∧ Unstarted id t) ⟨h, unstarted⟩
    (fun _ op t _ ih => ⟨ih.1.apply (effect_apply t op), ih.2.apply ih.1 (effect_apply t op)⟩)
    ops).2

/-- While a build is looked after it has no result. -/
theorem Booked.current_not_completed {s : Session} (h : Booked s) {id : BuildId}
    (current : s.currentBuild? = some id) : id ∉ completedIds s.events.log := by
  obtain ⟨build, active, rfl⟩ := Option.map_eq_some_iff.mp current
  exact h.chronicle.last_not_mem_completedIds (h.current build active)

theorem Booked.current_le {s : Session} (h : Booked s) {id : BuildId}
    (current : s.currentBuild? = some id) : id ≤ s.lastId := by
  obtain ⟨build, active, rfl⟩ := Option.map_eq_some_iff.mp current
  exact h.bounded ⟨_, build.id, .started⟩ (List.mem_of_getLast? (h.current build active))

/-- Starts and resets publish no result. -/
theorem completedIds_of_not_mayEnd {s t : Session} {op : Operation} {answer : Answer}
    (h : Booked s) (effect : Effect s op answer t) (quiet : op.mayEnd = false) :
    completedIds t.events.log = completedIds s.events.log := by
  cases effect with
  | kept _ _ _ books => rw [books.events]
  | discarded books => rw [books.events]; rfl
  | aborted located request books => rw [books.events]; rfl
  | accepted located request books =>
    rw [books.events, h.log_publish, completedIds_concat_started]
  | reported build succeeded said _ _ books => rw [books.events]
  | ended build result _ mayEnd _ _ _ =>
    rw [quiet] at mayEnd
    cases mayEnd

/-- A build that is replaced or reset is gone. -/
theorem gone_of_givenUp {s t : Session} {op : Operation} {answer : Answer} {id : BuildId}
    (h : Booked s) (effect : Effect s op answer t) (quiet : op.mayEnd = false)
    (current : s.currentBuild? = some id) (left : t.currentBuild? ≠ some id) : Gone id t := by
  refine ⟨⟨?_, left⟩, ?_⟩
  · rw [(lastId_apply effect).1]
    exact Nat.le_add_right_of_le (h.current_le current)
  · rw [completedIds_of_not_mayEnd h effect quiet]
    exact h.current_not_completed current

/-- The number of a start that fails is used up without a start. -/
theorem unstarted_of_aborted {s t : Session} {located : Located} {request : BuildRequest}
    {e : SessionError} (h : Booked s)
    (effect : Effect s (.start located request) (.started (.error e)) t) :
    Unstarted (s.lastId + 1) t := by
  have counted := (lastId_apply effect).1
  refine ⟨Nat.le_of_eq counted.symm, ?_⟩
  rw [startedIds_apply h effect]
  intro mem
  rw [List.mem_append] at mem
  rcases mem with earlier | new
  · obtain ⟨n, told, same⟩ := exists_of_mem_startedIds earlier
    have bound := h.bounded n told
    rw [same] at bound
    exact Nat.not_succ_le_self _ bound
  · cases new

/-- What the log tells of the builds of a run. -/
structure Lifecycle (s : Session) (ops : List Operation) : Prop where
  /-- The builds that were started are those that were accepted, each told of once. -/
  started : startedIds (s.run ops).events.log = acceptedIds (s.answers ops)
  /-- They have ever greater numbers. -/
  increasing : (startedIds (s.run ops).events.log).Pairwise (· < ·)
  /-- The number of an accepted build counts the starts up to it, those that failed among them;
      so it is never given again. -/
  numbered : ∀ before op after id, ops = before ++ op :: after →
    ((s.run before).apply op).1.newBuild? = some id → id = numbersTaken (s.answers before) + 1
  /-- No build has two results. -/
  completedOnce : (completedIds (s.run ops).events.log).Nodup
  /-- Right before the result of a build its start is told. -/
  startedBefore : ∀ before n after id, (s.run ops).events.log = before ++ n :: after →
    n.completedId? = some id → ∃ m, before.getLast? = some m ∧ m.startedId? = some id
  /-- Notifications are numbered from one on, without a gap. -/
  sequence : (s.run ops).events.log.map Notification.sequence =
    List.range' 1 (s.run ops).events.log.length
  /-- A build that was replaced or reset never has a result. -/
  givenUp : ∀ before op after id, ops = before ++ op :: after →
    (op = .reset ∨ ∃ located request, op = .start located request) →
    (s.run before).currentBuild? = some id →
    ((s.run before).apply op).2.currentBuild? ≠ some id →
    id ∉ completedIds (s.run ops).events.log
  /-- The number of a start that failed is in no notification. -/
  aborted : ∀ before located request after e, ops = before ++ .start located request :: after →
    ((s.run before).start located request).1 = .error e →
    numbersTaken (s.answers before) + 1 ∉ startedIds (s.run ops).events.log ∧
      numbersTaken (s.answers before) + 1 ∉ completedIds (s.run ops).events.log

/-- Whatever is done to a new session, its log tells the life of each of its builds. -/
theorem lifecycle_new (config : Config) (dialect : Dialect) (environment : Environment)
    (console : Console) (ops : List Operation) :
    Lifecycle (Session.new config dialect environment console) ops := by
  have first := booked_new config dialect environment console
  generalize hs : Session.new config dialect environment console = s at first
  have zero : s.lastId = 0 := by rw [← hs]; rfl
  have unwritten : startedIds s.events.log = [] := by rw [← hs]; rfl
  have taken (before : List Operation) :
      (s.run before).lastId = numbersTaken (s.answers before) := by
    rw [lastId_run, zero, Nat.zero_add]
  have last := booked_run first ops
  constructor
  case started => rw [startedIds_run first, unwritten, List.nil_append]
  case increasing => exact last.chronicle.pairwise_startedIds
  case numbered =>
    intro before op after id _ accepted
    rw [← taken before]
    exact (lastId_apply (effect_apply _ op)).2 id accepted
  case completedOnce => exact last.chronicle.nodup_completedIds
  case startedBefore =>
    intro before n after id place told
    exact last.chronicle.started_before_completed place told
  case sequence => exact last.chronicle.map_sequence
  case givenUp =>
    intro before op after id place kind current left
    have quiet : op.mayEnd = false := by
      rcases kind with rfl | ⟨located, request, rfl⟩ <;> rfl
    have then_ := booked_run first before
    have effect := effect_apply (s.run before) op
    rw [place, run_append, run]
    exact (gone_run (then_.apply effect) (gone_of_givenUp then_ effect quiet current left)
      after).never
  case aborted =>
    intro before located request after e place failed
    have then_ := booked_run first before
    have effect := effect_start (s.run before) located request
    rw [failed] at effect
    have never : numbersTaken (s.answers before) + 1 ∉ startedIds (s.run ops).events.log := by
      rw [place, run_append, run, ← taken before]
      exact (unstarted_run (then_.apply effect) (unstarted_of_aborted then_ effect) after).never
    exact ⟨never, last.chronicle.not_mem_completedIds never⟩

end BuildSupervisor.Session
