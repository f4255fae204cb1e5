import BuildSupervisor.Proofs.Schedule.Course
import BuildSupervisor.Proofs.Session.Deadline
/-!
# Clockwork

What `KeepsTime` says of the jobs of a schedule holds whatever they do and put off.  The tasks of
a session put nothing off, so that every move of its clock comes to an end, and two moves, one
after the other, are one: `advance_add`.  What has been put off in a run of a session is a course
of its schedule: `course_run`.
-/

namespace BuildSupervisor

namespace Schedule

variable {α : Type u} {σ : Type v}

/-- Jobs that do what `perform` says run once and in order, on a clock that never goes back. -/
structure KeepsTime (perform : Performance α σ) : Prop where
  courses : ∀ {puts ran s}, Course perform puts ran s → History puts ran s
  moves : ∀ {puts ran s state by_ more last final}, Course perform puts ran s →
    Unfolds perform (s.now.add by_) s state more last final → Sweep s by_ more last
  /-- A move does not leave open what runs, nor what comes of it. -/
  determined : ∀ {s state target ran last final ran' last' final'},
    Unfolds perform target s state ran last final →
    Unfolds perform target s state ran' last' final' →
    ran = ran' ∧ last = last' ∧ final = final'

theorem keepsTime (perform : Performance α σ) : KeepsTime perform :=
  ⟨Course.history, fun course moves => course.sweep moves, Unfolds.eq⟩

/-- A move of the clock comes to an end, and answers how many jobs ran. -/
structure Counted (run : Duration → α → σ → σ) (s : Schedule α) (by_ : Duration) (state : σ)
    (ran : List (Execution α)) : Prop where
  count : (s.advance run by_ state).1 = ran.length
  unfolds : Unfolds (performing run) (s.now.add by_) s state ran (s.advance run by_ state).2.1
    (s.advance run by_ state).2.2

theorem exists_counted (run : Duration → α → σ → σ) (s : Schedule α) (by_ : Duration)
    (state : σ) : ∃ ran, Counted run s by_ state ran := by
  obtain ⟨ran, count, unfolds⟩ := unfolds_runUntil run (s.now.add by_) s state
  exact ⟨ran, count, unfolds⟩

end Schedule

namespace Session

open Schedule (Unfolds Course)

/-- What a session does when a task falls due. -/
def performs : Schedule.Performance Deferred Session :=
  Schedule.performing fun _ task s => s.runDeferred task

/-- What a task does has nothing to do with what is put off. -/
theorem runDeferred_at (s : Session) (q : Schedule Deferred) (task : Deferred) :
    { s with schedule := q }.runDeferred task = { s.runDeferred task with schedule := q } := by
  by_cases rest : s.active = none
  · have rest' : { s with schedule := q }.active = none := rest
    rw [runDeferred_of_rest rest, runDeferred_of_rest rest']
  · obtain ⟨build, active⟩ := Option.ne_none_iff_exists'.mp rest
    have active' : { s with schedule := q }.active = some build := active
    cases ends : build.endBy? task with
    | none =>
      rw [runDeferred_of_endBy?_none active ends, runDeferred_of_endBy?_none active' ends]
    | some how =>
      rw [runDeferred_of_endBy? active ends, runDeferred_of_endBy? active' ends]
      rfl

/-- A move of the clock comes to an end, with the tasks that ran and the session they leave. -/
theorem exists_unfolds (s : Session) (by_ : Duration) :
    ∃ ran last final, Unfolds performs (s.schedule.now.add by_) s.schedule s ran last final ∧
      s.advance by_ = (ran.length, { final with schedule := last }) := by
  obtain ⟨ran, count, unfolds⟩ :=
    Schedule.exists_counted (fun _ task (t : Session) => t.runDeferred task) s.schedule by_ s
  refine ⟨ran, _, _, unfolds, ?_⟩
  rw [← count]
  rfl

/-- A move of the clock unfolds alike whatever is put off in the books of the session itself. -/
theorem unfolds_at {target : Duration} {q last : Schedule Deferred} {s final : Session}
    {ran : List (Execution Deferred)} (h : Unfolds performs target q s ran last final)
    (other : Schedule Deferred) : Unfolds performs target q { s with schedule := other } ran last
      { final with schedule := other } := by
  refine h.view (fun t => { t with schedule := other }) ?_
  intro time job t
  simp only [performs, Schedule.performing, runDeferred_at]

/-- Moving the clock twice leaves what moving it once as far does, and does as much. -/
theorem advance_add (s : Session) (a b : Duration) :
    s.advance (a.add b) =
      ((s.advance a).1 + ((s.advance a).2.advance b).1, ((s.advance a).2.advance b).2) := by
  obtain ⟨ran, middle, t, first, moved⟩ := s.exists_unfolds a
  obtain ⟨more, last, u, second, moved'⟩ := { t with schedule := middle }.exists_unfolds b
  obtain ⟨all, last', v, whole, moved''⟩ := s.exists_unfolds (a.add b)
  have reached : middle.now = s.schedule.now.add a := first.now_eq
  rw [Duration.add_assoc, ← reached] at whole
  have le : s.schedule.now.add a ≤ middle.now.add b := by
    rw [reached]
    exact Duration.le_add_right _ _
  have both := (unfolds_at first middle).trans le second
  obtain ⟨rfl, rfl, same⟩ := both.eq (unfolds_at whole middle)
  rw [moved'', moved, moved', List.length_append, same]

/-- What has become of the schedule of a new session is the course of what was put off. -/
theorem course_run (config : Config) (dialect : Dialect) (environment : Environment)
    (console : Console) (ops : List Operation) : ∃ puts ran, Course performs puts ran
      ((Session.new config dialect environment console).run ops).schedule := by
  refine run_induction (P := fun _ t => ∃ puts ran, Course performs puts ran t.schedule)
    ⟨[], [], .new⟩ ?_ ops
  intro ops op t there ⟨puts, ran, course⟩
  have timed := timed_run (timed_new config dialect environment console) ops
  rw [there] at timed
  have same (t' : Session) (schedule : t'.schedule = t.schedule) :
      ∃ puts ran, Course performs puts ran t'.schedule := by
    rw [schedule]
    exact ⟨puts, ran, course⟩
  cases timing_apply timed.prepared.plain timed.clocked.ordered op with
  | kept _ schedule => exact same _ schedule
  | rested _ schedule => exact same _ schedule
  | armed located request _ _ schedule =>
    rw [schedule]
    unfold putOffAtStart
    split
    · exact ⟨_, ran, course.puts _ _⟩
    · exact ⟨puts, ran, course⟩
  | reported build succeeded said _ _ _ schedule =>
    rw [schedule]
    exact ⟨_, ran, course.puts _ _⟩
  | moved by_ _ =>
    obtain ⟨more, last, final, unfolds, moved⟩ := t.exists_unfolds by_
    have schedule : (t.apply (.advance by_)).2.schedule = last := by
      change (t.advance by_).2.schedule = last
      rw [moved]
    rw [schedule]
    exact ⟨_, _, course.moves by_ unfolds⟩

/-- What falls due in a session, whatever was done to it before. -/
theorem sweep_advance (config : Config) (dialect : Dialect) (environment : Environment)
    (console : Console) (ops : List Operation) (by_ : Duration) :
    let s := (Session.new config dialect environment console).run ops
    ∃ ran, Schedule.Sweep s.schedule by_ ran (s.advance by_).2.schedule ∧
      (s.advance by_).1 = ran.length := by
  intro s
  obtain ⟨puts, done, course⟩ := course_run config dialect environment console ops
  obtain ⟨ran, last, final, unfolds, moved⟩ := s.exists_unfolds by_
  rw [moved]
  exact ⟨ran, course.sweep unfolds, rfl⟩

/-- The clock of a session. -/
structure MovesAsOne : Prop where
  /-- A task does not touch what is put off. -/
  quiet : ∀ (s : Session) task, (s.runDeferred task).schedule = s.schedule
  ends : ∀ (s : Session) by_, ∃ ran last final,
    Unfolds performs (s.schedule.now.add by_) s.schedule s ran last final ∧
      s.advance by_ = (ran.length, { final with schedule := last })
  course : ∀ config dialect environment console ops, ∃ puts ran, Course performs puts ran
    ((Session.new config dialect environment console).run ops).schedule
  inOrder : ∀ config dialect environment console ops by_,
    let s := (Session.new config dialect environment console).run ops
    ∃ ran, Schedule.Sweep s.schedule by_ ran (s.advance by_).2.schedule ∧
      (s.advance by_).1 = ran.length
  composes : ∀ (s : Session) a b, s.advance (a.add b) =
    ((s.advance a).1 + ((s.advance a).2.advance b).1, ((s.advance a).2.advance b).2)

/-- What jobs do and put off is their own affair; that they run once, in order and in time is the
    schedule's.  The clock of a session can always be moved, and in as many steps as one likes. -/
theorem clockwork {α : Type u} {σ : Type v} (perform : Schedule.Performance α σ)
    (run : Duration → α → σ → σ) :
    Schedule.KeepsTime perform ∧ (∀ s by_ state, ∃ ran, Schedule.Counted run s by_ state ran) ∧
      MovesAsOne :=
  ⟨Schedule.keepsTime perform, Schedule.exists_counted run, schedule_runDeferred, exists_unfolds,
    course_run, sweep_advance, advance_add⟩

/-- Runs three times, and puts itself off each time but the last. -/
def recurring : Schedule.Performance Unit Nat :=
  fun _ job n => (if n < 2 then [(Duration.ofNanos 10, job)] else [], n + 1)

theorem recurring_moves : ∃ ran last,
    Unfolds recurring (Duration.ofNanos 25)
      (Schedule.new.schedule (Duration.ofNanos 10) (Job.single ())) 0 ran last 2 ∧
    ran.length = 2 ∧
    Schedule.Sweep (Schedule.new.schedule (Duration.ofNanos 10) (Job.single ()))
      (Duration.ofNanos 25) ran last := by
  have course : Course recurring _ _ _ :=
    Course.new.puts (Duration.ofNanos 10) (Job.single ())
  have moves : Unfolds recurring (Duration.ofNanos 25)
      (Schedule.new.schedule (Duration.ofNanos 10) (Job.single ())) 0 _ _ _ :=
    .runs rfl (.runs rfl (.settles rfl))
  exact ⟨_, _, moves, rfl, (clockwork recurring fun _ _ n => n).1.moves course moves⟩

end Session

end BuildSupervisor
