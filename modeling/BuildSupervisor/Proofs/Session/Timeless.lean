import BuildSupervisor.Proofs.Session.Tasks
/-!
# Sessions and time

A session looks at its clock, and at what it has put off, in `advance` alone.  So two sessions that
differ in nothing but their schedules do the same in any run in which the tasks are called from
outside; they answer the same, and put off the same tasks.
-/

namespace BuildSupervisor

/-- The operation does not move the clock. -/
def Operation.IsTimeless (op : Operation) : Prop :=
  ∀ by_, op ≠ .advance by_

namespace Session

/-- The sessions are the same, apart from what they have put off. -/
def SameButSchedule (s t : Session) : Prop :=
  ∃ schedule, t = { s with schedule := schedule }

/-- Two sessions have become the same but for their schedules, and put off the same tasks on the
    way. -/
structure Alongside (s t s' t' : Session) : Prop where
  same : SameButSchedule s' t'
  puts : ∃ new, s'.schedule.actions.Perm (new ++ s.schedule.actions) ∧
    t'.schedule.actions.Perm (new ++ t.schedule.actions)

variable {s t u s' t' : Session}

/-- Nothing is put off where the schedules stay. -/
theorem alongside_of_kept (same : SameButSchedule s' t') (kept : s'.schedule = s.schedule)
    (kept' : t'.schedule = t.schedule) : Alongside s t s' t' :=
  ⟨same, [], by rw [kept, List.nil_append], by rw [kept', List.nil_append]⟩

theorem Alongside.trans {s'' t'' : Session} (h : Alongside s t s' t')
    (h' : Alongside s' t' s'' t'') : Alongside s t s'' t'' := by
  obtain ⟨new, left, right⟩ := h.puts
  obtain ⟨new', left', right'⟩ := h'.puts
  refine ⟨h'.same, new' ++ new, ?_, ?_⟩
  · rw [List.append_assoc]
    exact left'.trans (left.append_left new')
  · rw [List.append_assoc]
    exact right'.trans (right.append_left new')

namespace SameButSchedule

theorem refl (s : Session) : SameButSchedule s s :=
  ⟨s.schedule, rfl⟩

theorem trans (h : SameButSchedule s t) (h' : SameButSchedule t u) : SameButSchedule s u := by
  obtain ⟨_, rfl⟩ := h
  obtain ⟨schedule, rfl⟩ := h'
  exact ⟨schedule, rfl⟩

theorem sameBooks (h : SameButSchedule s t) : SameBooks s t := by
  obtain ⟨_, rfl⟩ := h
  exact ⟨rfl, rfl, rfl, rfl, rfl, rfl⟩

theorem active (h : SameButSchedule s t) : t.active = s.active :=
  h.sameBooks.active

theorem config (h : SameButSchedule s t) : t.config = s.config :=
  h.sameBooks.config

theorem status (h : SameButSchedule s t) : t.status = s.status := by
  obtain ⟨_, rfl⟩ := h
  rfl

theorem nextChunk (h : SameButSchedule s t) :
    t.nextChunk.1 = s.nextChunk.1 ∧ SameButSchedule s.nextChunk.2 t.nextChunk.2 := by
  obtain ⟨schedule, rfl⟩ := h
  exact ⟨rfl, schedule, rfl⟩

theorem begin (h : SameButSchedule s t) (located : Located) (request : BuildRequest) :
    (t.begin located request).1 = (s.begin located request).1 ∧
      Alongside s t (s.begin located request).2 (t.begin located request).2 := by
  obtain ⟨schedule, rfl⟩ := h
  unfold Session.begin
  dsimp only
  cases s.capture.subscribe? s.console with
  | none => exact ⟨rfl, alongside_of_kept ⟨schedule, rfl⟩ rfl rfl⟩
  | some reads =>
    dsimp only
    cases s.config.watchdogTimeout? with
    | none => exact ⟨rfl, alongside_of_kept ⟨schedule, rfl⟩ rfl rfl⟩
    | some timeout => exact ⟨rfl, ⟨_, rfl⟩, [_], Schedule.actions_schedule_perm _ _ _,
        Schedule.actions_schedule_perm _ _ _⟩

theorem start (h : SameButSchedule s t) (located : Located) (request : BuildRequest) :
    (t.start located request).1 = (s.start located request).1 ∧
      Alongside s t (s.start located request).2 (t.start located request).2 := by
  have rested : SameButSchedule s.reset t.reset := by
    obtain ⟨schedule, rfl⟩ := h
    exact ⟨schedule, rfl⟩
  unfold Session.start
  rw [h.active, h.config]
  split
  · exact ⟨rfl, alongside_of_kept h rfl rfl⟩
  · obtain ⟨answer, same, puts⟩ := rested.begin located request
    exact ⟨answer, same, puts⟩

theorem onBuildComplete (h : SameButSchedule s t) (succeeded : Bool) (said : String) :
    (t.onBuildComplete succeeded said).1 = (s.onBuildComplete succeeded said).1 ∧
      Alongside s t (s.onBuildComplete succeeded said).2
        (t.onBuildComplete succeeded said).2 := by
  unfold Session.onBuildComplete
  rw [h.active]
  split
  · exact ⟨rfl, alongside_of_kept h rfl rfl⟩
  · split
    · exact ⟨rfl, alongside_of_kept h rfl rfl⟩
    · obtain ⟨schedule, rfl⟩ := h
      exact ⟨rfl, ⟨_, rfl⟩, [_], Schedule.actions_schedule_perm _ _ _,
        Schedule.actions_schedule_perm _ _ _⟩

theorem finalize (h : SameButSchedule s t) (id : BuildId) (succeeded : Bool) (said : String) :
    (t.finalize id succeeded said).1 = (s.finalize id succeeded said).1 ∧
      SameButSchedule (s.finalize id succeeded said).2 (t.finalize id succeeded said).2 := by
  unfold Session.finalize
  rw [h.active]
  split
  · exact ⟨rfl, h⟩
  · split
    · obtain ⟨schedule, rfl⟩ := h
      exact ⟨rfl, schedule, rfl⟩
    · exact ⟨rfl, h⟩

theorem onWatchdog (h : SameButSchedule s t) (id : BuildId) :
    (t.onWatchdog id).1 = (s.onWatchdog id).1 ∧
      SameButSchedule (s.onWatchdog id).2 (t.onWatchdog id).2 := by
  unfold Session.onWatchdog
  rw [h.active]
  split
  · exact ⟨rfl, h⟩
  · split
    · obtain ⟨schedule, rfl⟩ := h
      exact ⟨rfl, schedule, rfl⟩
    · exact ⟨rfl, h⟩

/-- Whatever does not move the clock does the same to both, and both answer the same. -/
theorem apply (h : SameButSchedule s t) {op : Operation} (timeless : op.IsTimeless) :
    (t.apply op).1 = (s.apply op).1 ∧ Alongside s t (s.apply op).2 (t.apply op).2 := by
  cases op with
  | start located request =>
    obtain ⟨answer, alongside⟩ := h.start located request
    exact ⟨congrArg Answer.started answer, alongside⟩
  | buildComplete succeeded said =>
    obtain ⟨answer, alongside⟩ := h.onBuildComplete succeeded said
    exact ⟨congrArg Answer.accepted answer, alongside⟩
  | finalize id succeeded said =>
    obtain ⟨answer, same⟩ := h.finalize id succeeded said
    refine ⟨congrArg Answer.result answer, alongside_of_kept same ?_ ?_⟩
    · exact s.schedule_runDeferred (.finalize id succeeded said)
    · exact t.schedule_runDeferred (.finalize id succeeded said)
  | watchdog id =>
    obtain ⟨answer, same⟩ := h.onWatchdog id
    refine ⟨congrArg Answer.result answer, alongside_of_kept same ?_ ?_⟩
    · exact s.schedule_runDeferred (.watchdog id)
    · exact t.schedule_runDeferred (.watchdog id)
  | advance by_ => exact absurd rfl (timeless by_)
  | _ =>
    obtain ⟨schedule, rfl⟩ := h
    exact ⟨rfl, alongside_of_kept ⟨schedule, rfl⟩ rfl rfl⟩

theorem run (h : SameButSchedule s t) {ops : List Operation}
    (timeless : ∀ op ∈ ops, op.IsTimeless) : Alongside s t (s.run ops) (t.run ops) := by
  induction ops generalizing s t with
  | nil => exact alongside_of_kept h rfl rfl
  | cons op ops ih =>
    obtain ⟨first, others⟩ := List.forall_mem_cons.mp timeless
    have step := (h.apply first).2
    exact step.trans (ih step.same others)

end SameButSchedule

end Session

end BuildSupervisor
