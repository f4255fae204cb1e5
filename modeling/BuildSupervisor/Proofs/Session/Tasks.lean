import BuildSupervisor.Proofs.Event.Chronicle
import BuildSupervisor.Proofs.Schedule.Actions
import BuildSupervisor.Proofs.Session.Effect
/-!
# What a session has put off

Only starts and reports put something off, and each of them one task.  `settle_cases` says what the
operations do that may end a build: one task at most, since nothing is left to be ended after it.
-/

namespace BuildSupervisor

/-- The tasks that an operation may do. -/
def Operation.Does (op : Operation) (s : Session) (task : Deferred) : Prop :=
  match op with
  | .finalize id succeeded said => task = .finalize id succeeded said
  | .watchdog id => task = .watchdog id
  | .advance _ => task ∈ s.schedule.actions
  | _ => False

namespace Session

/-- What a start puts off is the watchdog of a build, where the session has one. -/
theorem mem_actions_start {s : Session} {located : Located} {request : BuildRequest}
    {task : Deferred} (h : task ∈ (s.start located request).2.schedule.actions) :
    task ∈ s.schedule.actions ∨
      s.config.watchdogTimeout? ≠ none ∧ task = .watchdog (s.lastId + 1) := by
  unfold start at h
  split at h
  · exact .inl h
  · unfold begin at h
    dsimp only at h
    split at h
    · exact .inl h
    · split at h
      · rename_i timeout there
        have there : s.config.watchdogTimeout? = some timeout := there
        rcases Schedule.mem_actions_schedule.mp h with new | old
        · exact .inr ⟨by rw [there]; exact Option.some_ne_none timeout, new⟩
        · exact .inl old
      · exact .inl h

/-- What the end of a tool puts off is that the build it is taken for gets its result. -/
theorem mem_actions_onBuildComplete {s : Session} {succeeded : Bool} {said : String}
    {task : Deferred} (h : task ∈ (s.onBuildComplete succeeded said).2.schedule.actions) :
    task ∈ s.schedule.actions ∨ ∃ build, s.active = some build ∧ build.phase = .building ∧
      task = .finalize build.id succeeded said := by
  unfold onBuildComplete at h
  split at h
  · exact .inl h
  · rename_i build active
    split at h
    · exact .inl h
    · rename_i phase
      rcases Schedule.mem_actions_schedule.mp h with new | old
      · exact .inr ⟨build, active, phase, new⟩
      · exact .inl old

/-- Giving a build its result puts nothing off. -/
theorem schedule_runDeferred (s : Session) (task : Deferred) :
    (s.runDeferred task).schedule = s.schedule := by
  rcases s.runDeferred_cases task with same | ⟨_, _, _, _, _, _, same⟩
  · rw [same]
  · rw [same]
    rfl

theorem runDeferred_of_rest {s : Session} (rest : s.active = none) (task : Deferred) :
    s.runDeferred task = s := by
  cases task with
  | finalize id succeeded said => simp only [runDeferred, finalize, rest]
  | watchdog id => simp only [runDeferred, onWatchdog, rest]

/-- A task does nothing, or leaves the session at rest. -/
theorem runDeferred_rests (s : Session) (task : Deferred) :
    s.runDeferred task = s ∨ (s.runDeferred task).active = none := by
  rcases s.runDeferred_cases task with same | ⟨_, _, _, _, _, _, same⟩
  · exact .inl same
  · rw [same]
    exact .inr rfl

/-- However much falls due, the session is left as one of the tasks leaves it, or as it was. -/
theorem advance_cases {s : Session} (plain : s.schedule.IsPlain) (by_ : Duration) :
    ∃ q : Schedule Deferred, q.IsPlain ∧ (∀ a ∈ q.actions, a ∈ s.schedule.actions) ∧
      ((s.advance by_).2 = { s with schedule := q } ∨
        ∃ task ∈ s.schedule.actions,
          (s.advance by_).2 = { s.runDeferred task with schedule := q }) := by
  have moved := advance_induction
    (P := fun q t => q.IsPlain ∧ (∀ a ∈ q.actions, a ∈ s.schedule.actions) ∧
      (t = s ∨ ∃ task ∈ s.schedule.actions, t = s.runDeferred task))
    s by_ ⟨plain, fun _ mem => mem, .inl rfl⟩ <| by
    intro q t rest state popped ⟨plain, known, done⟩
    obtain ⟨plain', alone⟩ := plain.pop? popped
    have first := Schedule.actions_of_pop? popped
    rw [alone]
    refine ⟨plain', ?_, ?_⟩
    · intro a mem
      refine known a ?_
      rw [first]
      exact List.mem_cons_of_mem _ mem
    · have due : t.job.action ∈ s.schedule.actions := by
        refine known _ ?_
        rw [first]
        exact List.mem_cons_self
      rcases done with rfl | ⟨task, mem, rfl⟩
      · exact .inr ⟨_, due, rfl⟩
      · rcases s.runDeferred_rests task with same | rest
        · rw [same]
          exact .inr ⟨_, due, rfl⟩
        · rw [runDeferred_of_rest rest]
          exact .inr ⟨task, mem, rfl⟩
  obtain ⟨last, t, _, ⟨plain, known, done⟩, same⟩ := moved
  refine ⟨{ last with now := s.schedule.now.add by_ }, plain, known, ?_⟩
  rw [same]
  rcases done with rfl | ⟨task, mem, rfl⟩
  · exact .inl rfl
  · exact .inr ⟨task, mem, rfl⟩

/-- An operation that may end a build leaves the session as one of its tasks leaves it, or as it
    was. -/
theorem settle_cases {s : Session} {op : Operation} (plain : s.schedule.IsPlain)
    (mayEnd : op.mayEnd = true) :
    ∃ q : Schedule Deferred, q.IsPlain ∧ (∀ a ∈ q.actions, a ∈ s.schedule.actions) ∧
      ((s.apply op).2 = { s with schedule := q } ∨
        ∃ task, op.Does s task ∧ (s.apply op).2 = { s.runDeferred task with schedule := q }) := by
  have same (task : Deferred) :
      s.runDeferred task = { s.runDeferred task with schedule := s.schedule } := by
    rw [← schedule_runDeferred s task]
  cases op with
  | finalize id succeeded said =>
    exact ⟨s.schedule, plain, fun _ mem => mem, .inr ⟨_, rfl, same (.finalize id succeeded said)⟩⟩
  | watchdog id => exact ⟨s.schedule, plain, fun _ mem => mem, .inr ⟨_, rfl, same (.watchdog id)⟩⟩
  | advance by_ => exact advance_cases plain by_
  | _ => cases mayEnd

/-- What a task publishes is the result of the build at hand. -/
theorem published_runDeferred {s : Session} {task : Deferred} {n : Notification}
    (h : (s.runDeferred task).events.log = s.events.log ++ [n]) :
    ∃ build result, s.active = some build ∧ n.buildId = build.id ∧ n.event = .completed result ∧
      Ends s build task result := by
  rcases s.runDeferred_cases task with same | ⟨build, succeeded, said, note, active, ends, same⟩
  · rw [same, List.self_eq_append_right] at h
    cases h
  · rw [same] at h
    obtain ⟨number, event⟩ := EventBus.published_of_log h
    exact ⟨build, _, active, number, event, ends⟩

/-- What an operation puts off: a watchdog for the build it starts, or the result of the build
    whose end it reports. -/
theorem mem_actions_apply {s : Session} (plain : s.schedule.IsPlain) {op : Operation}
    {task : Deferred} (h : task ∈ (s.apply op).2.schedule.actions) :
    task ∈ s.schedule.actions ∨ task = .watchdog (s.lastId + 1) ∨
      ∃ succeeded said build, op = .buildComplete succeeded said ∧ s.active = some build ∧
        build.phase = .building ∧ task = .finalize build.id succeeded said := by
  by_cases mayEnd : op.mayEnd = true
  · obtain ⟨q, _, known, same | ⟨_, _, same⟩⟩ := settle_cases plain mayEnd
    · rw [same] at h
      exact .inl (known task h)
    · rw [same] at h
      exact .inl (known task h)
  · cases op with
    | start located request =>
      rcases mem_actions_start h with old | ⟨_, new⟩
      · exact .inl old
      · exact .inr (.inl new)
    | buildComplete succeeded said =>
      rcases mem_actions_onBuildComplete h with old | ⟨build, active, phase, new⟩
      · exact .inl old
      · exact .inr (.inr ⟨succeeded, said, build, rfl, active, phase, new⟩)
    | finalize id succeeded said => exact absurd rfl mayEnd
    | watchdog id => exact absurd rfl mayEnd
    | advance by_ => exact absurd rfl mayEnd
    | _ => exact .inl h

/-- Whatever is put off puts nothing off itself. -/
theorem isPlain_apply {s : Session} (plain : s.schedule.IsPlain) (op : Operation) :
    (s.apply op).2.schedule.IsPlain := by
  by_cases mayEnd : op.mayEnd = true
  · obtain ⟨q, plain', _, same | ⟨_, _, same⟩⟩ := settle_cases plain mayEnd
    · rw [same]
      exact plain'
    · rw [same]
      exact plain'
  · cases op with
    | start located request =>
      change (s.start located request).2.schedule.IsPlain
      unfold start
      split
      · exact plain
      · unfold begin
        dsimp only
        split
        · exact plain
        · split
          · exact plain.schedule _ _
          · exact plain
    | buildComplete succeeded said =>
      change (s.onBuildComplete succeeded said).2.schedule.IsPlain
      unfold onBuildComplete
      split
      · exact plain
      · split
        · exact plain
        · exact plain.schedule _ _
    | finalize id succeeded said => exact absurd rfl mayEnd
    | watchdog id => exact absurd rfl mayEnd
    | advance by_ => exact absurd rfl mayEnd
    | _ => exact plain

end Session

end BuildSupervisor
