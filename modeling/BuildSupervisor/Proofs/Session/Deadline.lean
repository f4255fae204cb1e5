import BuildSupervisor.Proofs.Schedule.Order
import BuildSupervisor.Proofs.Session.Silence
import BuildSupervisor.Proofs.Session.Underway
/-!
# When a build ends

Of all that a session has put off, only one task can end the build at hand: its watchdog while its
tool runs, and the making of its result after that.  `ending?` finds that task in the schedule, and
`moved_advance` says that nothing else decides what a move of the clock does to the session.

`Timing` lists what an operation does to the build at hand and to the schedule.  From it follows
that a build which waits for its result, or has a watchdog, is never left without its task.
-/

namespace BuildSupervisor

/-- The build a task was put off for. -/
def Deferred.buildId : Deferred → BuildId
  | .finalize id _ _ => id
  | .watchdog id => id

/-- What the result of a build says of its end. -/
def BuildEnd.remark? (config : Config) : BuildEnd → Option String
  | .reported _ _ => none
  | .expired => some (Session.watchdogNote config)

namespace ActiveBuild

/-- How a task ends the build, if it does. -/
def endBy? (build : ActiveBuild) : Deferred → Option BuildEnd
  | .finalize id succeeded said =>
    if build.phase = .completionPending ∧ build.id = id then some (.reported succeeded said)
    else none
  | .watchdog id => if build.phase = .building ∧ build.id = id then some .expired else none

/-- When and how the first of the jobs that do so ends the build. -/
def firstEnd? (build : ActiveBuild) (pending : List (ScheduledJob Deferred)) :
    Option (Duration × BuildEnd) :=
  pending.findSome? fun t => (build.endBy? t.job.action).map fun how => (t.due, how)

theorem endBy?_eq_none {build : ActiveBuild} {task : Deferred} (other : task.buildId ≠ build.id) :
    build.endBy? task = none := by
  cases task with
  | finalize id succeeded said => exact if_neg fun due => other due.2.symm
  | watchdog id => exact if_neg fun due => other due.2.symm

/-- Which task it is that ends the build. -/
theorem endBy?_eq_some {build : ActiveBuild} {task : Deferred} {how : BuildEnd}
    (h : build.endBy? task = some how) :
    (∃ succeeded said, build.phase = .completionPending ∧
        task = .finalize build.id succeeded said ∧ how = .reported succeeded said) ∨
      build.phase = .building ∧ task = .watchdog build.id ∧ how = .expired := by
  cases task with
  | finalize id succeeded said =>
    simp only [endBy?, Option.ite_none_right_eq_some, Option.some.injEq] at h
    obtain ⟨⟨phase, rfl⟩, rfl⟩ := h
    exact .inl ⟨succeeded, said, phase, rfl, rfl⟩
  | watchdog id =>
    simp only [endBy?, Option.ite_none_right_eq_some, Option.some.injEq] at h
    obtain ⟨⟨phase, rfl⟩, rfl⟩ := h
    exact .inr ⟨phase, rfl, rfl⟩

theorem mem_of_firstEnd? {build : ActiveBuild} {pending : List (ScheduledJob Deferred)}
    {due : Duration} {how : BuildEnd} (h : build.firstEnd? pending = some (due, how)) :
    ∃ t ∈ pending, t.due = due ∧ build.endBy? t.job.action = some how := by
  obtain ⟨t, mem, found⟩ := List.exists_of_findSome?_eq_some h
  obtain ⟨how', ends, same⟩ := Option.map_eq_some_iff.mp found
  cases same
  exact ⟨t, mem, rfl, ends⟩

end ActiveBuild

namespace Session

theorem state_of_active {s : Session} {build : ActiveBuild} (active : s.active = some build) :
    build.phase = .building ∧ s.state = .building ∨
      build.phase = .completionPending ∧ s.state = .completionPending := by
  cases phase : build.phase <;> simp [state, active, phase]

/-- When and how the build at hand ends, if nothing but the clock has a say in it. -/
def ending? (s : Session) : Option (Duration × BuildEnd) :=
  s.active.bind fun build => build.firstEnd? s.schedule.pending

/-- Ends the build at hand. -/
def conclude (s : Session) (build : ActiveBuild) (how : BuildEnd) : BuildResult × Session :=
  s.finish build how.succeeded how.said (how.remark? s.config)

theorem runDeferred_of_endBy? {s : Session} {build : ActiveBuild} {task : Deferred}
    {how : BuildEnd} (active : s.active = some build) (h : build.endBy? task = some how) :
    s.runDeferred task = (s.conclude build how).2 := by
  rcases ActiveBuild.endBy?_eq_some h with ⟨succeeded, said, phase, rfl, rfl⟩ | ⟨phase, rfl, rfl⟩
  · simp only [runDeferred, finalize, active, phase, and_self, if_true]
    rfl
  · simp only [runDeferred, onWatchdog, active, phase, and_self, if_true]
    rfl

theorem runDeferred_of_endBy?_none {s : Session} {build : ActiveBuild} {task : Deferred}
    (active : s.active = some build) (h : build.endBy? task = none) : s.runDeferred task = s := by
  cases task with
  | finalize id succeeded said =>
    have other : ¬(build.phase = .completionPending ∧ build.id = id) := by
      intro due
      simp [ActiveBuild.endBy?, due] at h
    simp only [runDeferred, finalize, active, if_neg other]
  | watchdog id =>
    have other : ¬(build.phase = .building ∧ build.id = id) := by
      intro due
      simp [ActiveBuild.endBy?, due] at h
    simp only [runDeferred, onWatchdog, active, if_neg other]

/-! ## Moving the clock -/

/-- What is left of a schedule when its clock has been moved. -/
structure Remains (q : Schedule Deferred) (target : Duration) (left : Schedule Deferred) :
    Prop where
  now : left.now = target
  ordered : left.Ordered
  known : ∀ task ∈ left.actions, task ∈ q.actions

/-- A move of the clock ends the build at hand, if the task that does so is due by then. -/
inductive Moved (s : Session) (target : Duration) : Session → Prop where
  | concluded (build : ActiveBuild) (due : Duration) (how : BuildEnd)
      (left : Schedule Deferred) : Remains s.schedule target left → s.active = some build →
      s.ending? = some (due, how) → due ≤ target →
      Moved s target { (s.conclude build how).2 with schedule := left }
  | kept (left : Schedule Deferred) : Remains s.schedule target left →
      (∀ due how, s.ending? = some (due, how) → target < due) →
      { s with schedule := left }.ending? = s.ending? → Moved s target { s with schedule := left }

theorem moved_advance {s : Session} (plain : s.schedule.IsPlain) (ordered : s.schedule.Ordered)
    (by_ : Duration) : Moved s (s.schedule.now.add by_) (s.advance by_).2 := by
  generalize there : s.schedule.now.add by_ = target
  have moved := advance_induction
    (P := fun q t => q.IsPlain ∧ q.Ordered ∧ (∀ a ∈ q.actions, a ∈ s.schedule.actions) ∧
      (t = s ∧ { s with schedule := q }.ending? = s.ending? ∨
        ∃ build due how, s.active = some build ∧ s.ending? = some (due, how) ∧ due ≤ target ∧
          t = (s.conclude build how).2))
    s by_ ⟨plain, ordered, fun _ mem => mem, .inl ⟨rfl, rfl⟩⟩ <| by
    intro q t rest state popped ⟨plain, ordered, known, done⟩
    rw [there] at popped
    obtain ⟨split, due, _⟩ := Schedule.pop?_eq_some popped
    obtain ⟨plain', alone⟩ := plain.pop? popped
    rw [alone]
    refine ⟨plain', ordered.pop? popped, ?_, ?_⟩
    · intro a mem
      refine known a ?_
      rw [Schedule.actions_of_pop? popped]
      exact List.mem_cons_of_mem _ mem
    · rcases done with ⟨rfl, same⟩ | ⟨build, due, how, active, ending, inTime, rfl⟩
      · cases active : state.active with
        | none =>
          refine .inl ⟨runDeferred_of_rest active _, ?_⟩
          simp only [ending?, active, Option.bind_none]
        | some build =>
          simp only [ending?, active, Option.bind_some, ActiveBuild.firstEnd?, split,
            List.findSome?_cons] at same ⊢
          cases ends : build.endBy? t.job.action with
          | none =>
            rw [ends, Option.map_none] at same
            exact .inl ⟨runDeferred_of_endBy?_none active ends, same⟩
          | some how =>
            rw [ends, Option.map_some] at same
            exact .inr ⟨build, t.due, how, rfl, same.symm, due, runDeferred_of_endBy? active ends⟩
      · -- The build is gone, so that what falls due after that finds nothing to end.
        exact .inr ⟨build, due, how, active, ending, inTime, runDeferred_of_rest rfl _⟩
  obtain ⟨last, t, none_, ⟨_, inOrder, known, done⟩, same⟩ := moved
  rw [there] at none_ same
  rw [same]
  rcases done with ⟨rfl, unchanged⟩ | ⟨build, due, how, active, ending, inTime, rfl⟩
  · refine .kept _ ⟨rfl, inOrder, known⟩ ?_ unchanged
    intro due how ending
    rw [← unchanged] at ending
    obtain ⟨build, _, first⟩ := Option.bind_eq_some_iff.mp ending
    obtain ⟨job, mem, rfl, _⟩ := ActiveBuild.mem_of_firstEnd? first
    exact inOrder.lt_due none_ mem
  · exact .concluded build due how _ ⟨rfl, inOrder, known⟩ active ending inTime

/-! ## What an operation puts off -/

/-- What an operation does to the build at hand and to what is put off. -/
inductive Timing (s : Session) : Operation → Session → Prop where
  | kept {op t} : t.active = s.active → t.schedule = s.schedule → Timing s op t
  | rested {op t} : t.active = none → t.schedule = s.schedule → Timing s op t
  | armed (located : Located) (request : BuildRequest) {t} :
      t.active = some (s.opened located request) → t.lastId = s.lastId + 1 →
      t.schedule = s.putOffAtStart → Timing s (.start located request) t
  | reported (build : ActiveBuild) (succeeded : Bool) (said : String) {t} :
      s.active = some build → build.phase = .building →
      t.active = some { build with phase := .completionPending } →
      t.schedule = s.schedule.schedule s.config.completionDelay
        (Job.single (.finalize build.id succeeded said)) →
      Timing s (.buildComplete succeeded said) t
  | moved (by_ : Duration) {t} : Moved s (s.schedule.now.add by_) t → Timing s (.advance by_) t

theorem timing_start (s : Session) (located : Located) (request : BuildRequest) :
    Timing s (.start located request) (s.start located request).2 := by
  unfold start
  split
  · exact .kept rfl rfl
  · unfold begin
    dsimp only
    split
    · exact .rested rfl rfl
    · have watched : s.reset.config.watchdogTimeout? = s.config.watchdogTimeout? := rfl
      split
      · rename_i timeout there
        refine .armed located request rfl rfl ?_
        rw [putOffAtStart, ← watched, there]
        rfl
      · rename_i there
        refine .armed located request rfl rfl ?_
        rw [putOffAtStart, ← watched, there]
        rfl

theorem timing_runDeferred (s : Session) (op : Operation) (task : Deferred) :
    Timing s op (s.runDeferred task) := by
  rcases s.runDeferred_rests task with same | rest
  · rw [same]
    exact .kept rfl rfl
  · exact .rested rest (schedule_runDeferred s task)

theorem timing_apply {s : Session} (plain : s.schedule.IsPlain) (ordered : s.schedule.Ordered)
    (op : Operation) : Timing s op (s.apply op).2 := by
  cases op with
  | start located request => exact timing_start s located request
  | buildComplete succeeded said =>
    change Timing s _ (s.onBuildComplete succeeded said).2
    unfold onBuildComplete
    split
    · exact .kept rfl rfl
    · rename_i build active
      split
      · exact .kept rfl rfl
      · rename_i phase
        exact .reported build succeeded said active phase rfl rfl
  | finalize id succeeded said => exact timing_runDeferred s _ (.finalize id succeeded said)
  | watchdog id => exact timing_runDeferred s _ (.watchdog id)
  | advance by_ => exact .moved by_ (moved_advance plain ordered by_)
  | reset => exact .rested rfl rfl
  | outputChunk c => exact .kept rfl rfl
  | drainConsole => exact .kept rfl rfl
  | nextChunk => exact .kept rfl rfl
  | write c => exact .kept rfl rfl
  | closeConsole => exact .kept rfl rfl

/-- What is put off is in order, and nothing of it is for a build that is still to come, or for a
    report that is. -/
structure Clocked (s : Session) : Prop where
  ordered : s.schedule.Ordered
  given : ∀ task ∈ s.schedule.actions, task.buildId ≤ s.lastId
  unreported : ∀ build, s.active = some build → build.phase = .building → ∀ succeeded said,
    .finalize build.id succeeded said ∉ s.schedule.actions

theorem clocked_new (config : Config) (dialect : Dialect) (environment : Environment)
    (console : Console) : Clocked (Session.new config dialect environment console) :=
  ⟨List.Pairwise.nil, nofun, nofun⟩

/-- What a start puts off is the watchdog of the build, if there is one. -/
theorem mem_putOffAtStart {s : Session} {task : Deferred} :
    task ∈ s.putOffAtStart.actions ↔ task ∈ s.schedule.actions ∨
      s.config.watchdogTimeout? ≠ none ∧ task = .watchdog (s.lastId + 1) := by
  unfold putOffAtStart
  cases watchdog : s.config.watchdogTimeout? with
  | some timeout =>
    rw [Schedule.mem_actions_schedule, or_comm]
    simp [Job.single, Job.action]
  | none => simp

theorem ordered_putOffAtStart {s : Session} (h : s.schedule.Ordered) :
    s.putOffAtStart.Ordered := by
  unfold putOffAtStart
  split
  · exact h.schedule _ _
  · exact h

theorem Clocked.of_known {s t : Session} (h : Clocked s) (ordered : t.schedule.Ordered)
    (later : s.lastId ≤ t.lastId) (known : ∀ task ∈ t.schedule.actions, task ∈ s.schedule.actions)
    (active : t.active = none ∨ t.active = s.active) : Clocked t := by
  refine ⟨ordered, fun task mem => Nat.le_trans (h.given task (known task mem)) later, ?_⟩
  intro build there phase succeeded said mem
  rcases active with rest | same
  · rw [rest] at there
    cases there
  · rw [same] at there
    exact h.unreported build there phase succeeded said (known _ mem)

/-- Every operation keeps what is put off in order. -/
theorem Clocked.step {s t : Session} {op : Operation} (prepared : Prepared s) (h : Clocked s)
    (later : s.lastId ≤ t.lastId) (timing : Timing s op t) : Clocked t := by
  cases timing with
  | kept active schedule =>
    refine h.of_known ?_ later ?_ (.inr active)
    · rw [schedule]
      exact h.ordered
    · rw [schedule]
      exact fun _ mem => mem
  | rested rest schedule =>
    refine h.of_known ?_ later ?_ (.inl rest)
    · rw [schedule]
      exact h.ordered
    · rw [schedule]
      exact fun _ mem => mem
  | armed located request active lastId schedule =>
    constructor
    · rw [schedule]
      exact ordered_putOffAtStart h.ordered
    · intro task mem
      rw [schedule] at mem
      rw [lastId]
      rcases mem_putOffAtStart.mp mem with old | ⟨_, rfl⟩
      · exact Nat.le_succ_of_le (h.given task old)
      · exact Nat.le_refl _
    · intro build there _ succeeded said mem
      rw [active] at there
      cases there
      rw [schedule] at mem
      rcases mem_putOffAtStart.mp mem with old | ⟨_, new⟩
      · exact Nat.not_succ_le_self _ (h.given _ old)
      · cases new
  | reported build succeeded said active phase active' schedule =>
    constructor
    · rw [schedule]
      exact h.ordered.schedule _ _
    · intro task mem
      rw [schedule] at mem
      refine Nat.le_trans ?_ later
      rcases Schedule.mem_actions_schedule.mp mem with rfl | old
      · have current : s.currentBuild? = some build.id := by
          rw [currentBuild?, active, Option.map_some]
        exact prepared.booked.current_le current
      · exact h.given task old
    · intro other there phase'
      rw [active'] at there
      cases there
      cases phase'
  | moved by_ moved =>
    cases moved with
    | concluded build due how left remains _ _ _ =>
      exact h.of_known remains.ordered later remains.known (.inl rfl)
    | kept left remains _ _ => exact h.of_known remains.ordered later remains.known (.inr rfl)

/-! ## The task of the build at hand -/

/-- How long a build may go on as it does. -/
def patience? (config : Config) : BuildPhase → Option Duration
  | .building => config.watchdogTimeout?
  | .completionPending => some config.completionDelay

/-- The watchdog is what ends a build that has just been taken up. -/
theorem ending?_armed {s t : Session} {located : Located} {request : BuildRequest}
    (h : Clocked s) (active : t.active = some (s.opened located request))
    (schedule : t.schedule = s.putOffAtStart) :
    t.ending? = s.config.watchdogTimeout?.map fun timeout =>
      (s.schedule.now.add timeout, .expired) := by
  have old : ∀ other ∈ s.schedule.pending,
      ((s.opened located request).endBy? other.job.action).map (fun how => (other.due, how)) =
        none := by
    intro other mem
    have given := h.given _ (List.mem_map_of_mem mem)
    have differs : other.job.action.buildId ≠ (s.opened located request).id := by
      intro same
      rw [same] at given
      exact Nat.not_succ_le_self _ given
    rw [ActiveBuild.endBy?_eq_none differs, Option.map_none]
  simp only [ending?, active, Option.bind_some, schedule, putOffAtStart, ActiveBuild.firstEnd?]
  cases s.config.watchdogTimeout? with
  | none => exact List.findSome?_eq_none_iff.mpr old
  | some timeout =>
    refine (Schedule.findSome?_insert _ _ old).trans ?_
    simp [Job.single, Job.action, ActiveBuild.endBy?, opened]

/-- The report is what ends a build that has just been reported. -/
theorem ending?_reported {s t : Session} {build : ActiveBuild} {succeeded : Bool} {said : String}
    (h : Clocked s) (active : s.active = some build) (phase : build.phase = .building)
    (active' : t.active = some { build with phase := .completionPending })
    (schedule : t.schedule = s.schedule.schedule s.config.completionDelay
      (Job.single (.finalize build.id succeeded said))) :
    t.ending? =
      some (s.schedule.now.add s.config.completionDelay, .reported succeeded said) := by
  have old : ∀ other ∈ s.schedule.pending,
      (({ build with phase := .completionPending } : ActiveBuild).endBy? other.job.action).map
        (fun how => (other.due, how)) = none := by
    intro other mem
    cases ends : ({ build with phase := .completionPending } : ActiveBuild).endBy?
        other.job.action with
    | none => rfl
    | some how =>
      rcases ActiveBuild.endBy?_eq_some ends with ⟨succeeded', said', _, task, _⟩ | ⟨wrong, _⟩
      · have unreported := h.unreported build active phase succeeded' said'
        rw [← task] at unreported
        exact absurd (List.mem_map_of_mem mem) unreported
      · cases wrong
  simp only [ending?, active', Option.bind_some, schedule, ActiveBuild.firstEnd?]
  refine (Schedule.findSome?_insert _ _ old).trans ?_
  simp [Job.single, Job.action, ActiveBuild.endBy?]

/-- The build at hand is ended in time. -/
def Punctual (s : Session) : Prop :=
  ∀ build delay, s.active = some build → patience? s.config build.phase = some delay →
    ∃ due how, s.ending? = some (due, how) ∧ due ≤ s.schedule.now.add delay

theorem Punctual.step {s t : Session} {op : Operation} (clocked : Clocked s) (h : Punctual s)
    (config : t.config = s.config) (timing : Timing s op t) : Punctual t := by
  intro build delay there patience
  rw [config] at patience
  cases timing with
  | kept active schedule =>
    rw [active] at there
    have same : t.ending? = s.ending? := by rw [ending?, active, schedule, ending?]
    rw [same, schedule]
    exact h build delay there patience
  | rested rest _ =>
    rw [rest] at there
    cases there
  | armed located request active _ schedule =>
    rw [active] at there
    cases there
    have timeout : s.config.watchdogTimeout? = some delay := patience
    rw [ending?_armed clocked active schedule, timeout, schedule, putOffAtStart, timeout]
    exact ⟨_, _, rfl, Nat.le_refl _⟩
  | reported other succeeded said active phase active' schedule =>
    rw [active'] at there
    cases there
    cases patience
    rw [ending?_reported clocked active phase active' schedule, schedule]
    exact ⟨_, _, rfl, Nat.le_refl _⟩
  | moved by_ moved =>
    cases moved with
    | concluded _ _ _ _ _ _ _ _ => cases there
    | kept left remains _ same =>
      obtain ⟨due, how, ending, inTime⟩ := h build delay there patience
      refine ⟨due, how, same.trans ending, ?_⟩
      have later := s.schedule.now.bounded
      rw [Duration.le_def] at inTime ⊢
      simp only [remains.now, Duration.nanos_add] at inTime ⊢
      omega

/-- What is known of the clock in every state of a run. -/
structure Timed (s : Session) : Prop where
  prepared : Prepared s
  clocked : Clocked s
  punctual : Punctual s

theorem timed_new (config : Config) (dialect : Dialect) (environment : Environment)
    (console : Console) : Timed (Session.new config dialect environment console) :=
  ⟨prepared_new .., clocked_new .., nofun⟩

theorem Timed.apply {s : Session} (h : Timed s) (op : Operation) : Timed (s.apply op).2 := by
  have effect := effect_apply s op
  have timing := timing_apply h.prepared.plain h.clocked.ordered op
  have later : s.lastId ≤ (s.apply op).2.lastId := by
    rw [(lastId_apply effect).1]
    exact Nat.le_add_right _ _
  exact ⟨h.prepared.apply op, h.clocked.step h.prepared later timing,
    h.punctual.step h.clocked effect.settings.1 timing⟩

theorem timed_run {s : Session} (h : Timed s) (ops : List Operation) : Timed (s.run ops) :=
  run_induction (P := fun _ t => Timed t) h (fun _ op _ _ ih => ih.apply op) ops

/-- The task is put off so that it ends the build `id` when the clock moves by `delay`. -/
structure EndsWithin (s : Session) (id : BuildId) (delay : Duration) (task : Deferred)
    (result : BuildResult) : Prop where
  /-- The result is the one that the task makes of the build at hand. -/
  ends : ∃ build, s.active = some build ∧ build.id = id ∧ Ends s build task result
  queued : ∃ t ∈ s.schedule.pending, t.job.action = task ∧
    t.due ≤ s.schedule.now.add delay
  /-- Nothing is published but the result. -/
  published : ∀ by_, delay ≤ by_ → (s.advance by_).2.events.log =
    s.events.log ++ [⟨s.events.log.length + 1, id, .completed result⟩]
  rests : ∀ by_, delay ≤ by_ → (s.advance by_).2.state = .idle

/-- A build that is due to end within a delay ends when the clock moves by it. -/
theorem endsWithin_of_ending? {s : Session} (h : Timed s) {build : ActiveBuild}
    {delay due : Duration} {how : BuildEnd} (active : s.active = some build)
    (ending : s.ending? = some (due, how)) (inTime : due ≤ s.schedule.now.add delay) :
    ∃ task, build.endBy? task = some how ∧
      EndsWithin s build.id delay task (s.conclude build how).1 := by
  have first : build.firstEnd? s.schedule.pending = some (due, how) := by
    rw [← ending, ending?, active, Option.bind_some]
  obtain ⟨job, mem, rfl, ends⟩ := ActiveBuild.mem_of_firstEnd? first
  have moves (by_ : Duration) (long : delay ≤ by_) :
      ∃ left, (s.advance by_).2 = { (s.conclude build how).2 with schedule := left } := by
    have moved := moved_advance h.prepared.plain h.clocked.ordered by_
    generalize (s.advance by_).2 = t at moved ⊢
    cases moved with
    | concluded other due' how' left _ active' ending' _ =>
      cases active.symm.trans active'
      cases ending.symm.trans ending'
      exact ⟨left, rfl⟩
    | kept left _ late _ =>
      have late := Duration.lt_def.mp (late _ _ ending)
      have reached := Duration.le_def.mp (Duration.add_le_add_left long s.schedule.now)
      have inTime := Duration.le_def.mp inTime
      omega
  refine ⟨job.job.action, ends, ?_, ⟨job, mem, rfl, inTime⟩, ?_, ?_⟩
  · refine ⟨build, active, rfl, ?_⟩
    rcases ActiveBuild.endBy?_eq_some ends with ⟨succeeded, said, phase, task, rfl⟩ |
      ⟨phase, task, rfl⟩
    · rw [task]
      exact .reported succeeded said phase
    · rw [task]
      exact .expired phase
  · intro by_ long
    obtain ⟨left, same⟩ := moves by_ long
    rw [same]
    exact h.prepared.booked.log_publish build.id _
  · intro by_ long
    obtain ⟨left, same⟩ := moves by_ long
    rw [same]
    rfl

/-- An accepted build does not get stuck. -/
structure NeverStuck (s : Session) : Prop where
  /-- A build whose end was reported gets its result after the completion delay. -/
  reported : ∀ id, s.state = .completionPending → s.currentBuild? = some id →
    ∃ succeeded said result,
      EndsWithin s id s.config.completionDelay (.finalize id succeeded said) result
  /-- A build that nobody reports is ended as failed by its watchdog, if there is one. -/
  unreported : ∀ id timeout, s.state = .building → s.currentBuild? = some id →
    s.config.watchdogTimeout? = some timeout →
    ∃ result, EndsWithin s id timeout (.watchdog id) result

/-- Whatever has been done to a new session, and whatever its clock shows, the build at hand gets
    its result when the clock moves far enough. -/
theorem neverStuck_new (config : Config) (dialect : Dialect) (environment : Environment)
    (console : Console) (ops : List Operation) :
    NeverStuck ((Session.new config dialect environment console).run ops) := by
  have h := timed_run (timed_new config dialect environment console) ops
  generalize (Session.new config dialect environment console).run ops = s at h
  constructor
  case reported =>
    intro id state current
    obtain ⟨build, active, rfl⟩ := Option.map_eq_some_iff.mp current
    have phase : build.phase = .completionPending := by
      rcases state_of_active active with ⟨_, other⟩ | ⟨phase, _⟩
      · cases state.symm.trans other
      · exact phase
    have patience : patience? s.config build.phase = some s.config.completionDelay := by
      rw [phase]
      rfl
    obtain ⟨due, how, ending, inTime⟩ := h.punctual build _ active patience
    obtain ⟨task, ends, within⟩ := endsWithin_of_ending? h active ending inTime
    rcases ActiveBuild.endBy?_eq_some ends with ⟨succeeded, said, _, rfl, _⟩ | ⟨other, _⟩
    · exact ⟨succeeded, said, _, within⟩
    · cases phase.symm.trans other
  case unreported =>
    intro id timeout state current watched
    obtain ⟨build, active, rfl⟩ := Option.map_eq_some_iff.mp current
    have phase : build.phase = .building := by
      rcases state_of_active active with ⟨phase, _⟩ | ⟨_, other⟩
      · exact phase
      · cases state.symm.trans other
    have patience : patience? s.config build.phase = some timeout := by
      rw [phase]
      exact watched
    obtain ⟨due, how, ending, inTime⟩ := h.punctual build _ active patience
    obtain ⟨task, ends, within⟩ := endsWithin_of_ending? h active ending inTime
    rcases ActiveBuild.endBy?_eq_some ends with ⟨_, _, other, _⟩ | ⟨_, rfl, _⟩
    · cases phase.symm.trans other
    · exact ⟨_, within⟩

end Session

end BuildSupervisor
