import BuildSupervisor.Proofs.Schedule.Advance
/-!
# What is put off

The actions of a schedule are what it will do, the one that is due first in front.  When they are
due does not matter to what can be among them.
-/

namespace BuildSupervisor.Schedule

variable {α : Type u}

/-- What the pending jobs do. -/
def actions (s : Schedule α) : List α :=
  s.pending.map fun t => t.job.action

theorem mem_insert {t other : ScheduledJob α} {pending : List (ScheduledJob α)} :
    t ∈ insert other pending ↔ t = other ∨ t ∈ pending := by
  induction pending with
  | nil => simp [insert]
  | cons first rest ih =>
    unfold insert
    split
    · rw [List.mem_cons]
    · rw [List.mem_cons, ih, List.mem_cons]
      exact or_left_comm

@[simp] theorem mem_actions_schedule {s : Schedule α} {delay : Duration} {job : Job α} {a : α} :
    a ∈ (s.schedule delay job).actions ↔ a = job.action ∨ a ∈ s.actions := by
  simp only [actions, schedule, List.mem_map, mem_insert]
  constructor
  · rintro ⟨t, rfl | mem, rfl⟩
    · exact .inl rfl
    · exact .inr ⟨t, mem, rfl⟩
  · rintro (rfl | ⟨t, mem, rfl⟩)
    · exact ⟨_, .inl rfl, rfl⟩
    · exact ⟨t, .inr mem, rfl⟩

theorem insert_perm (t : ScheduledJob α) (pending : List (ScheduledJob α)) :
    (insert t pending).Perm (t :: pending) := by
  induction pending with
  | nil => exact .refl _
  | cons first rest ih =>
    unfold insert
    split
    · exact .refl _
    · exact (ih.cons first).trans (.swap t first rest)

/-- Scheduling a job adds one action, wherever it is put. -/
theorem actions_schedule_perm (s : Schedule α) (delay : Duration) (job : Job α) :
    (s.schedule delay job).actions.Perm (job.action :: s.actions) :=
  (insert_perm _ s.pending).map _

/-- Bringing jobs forward changes nothing of what they do. -/
@[simp] theorem actions_noLaterThan (s : Schedule α) (latest : Duration) :
    (s.noLaterThan latest).actions = s.actions := by
  simp only [actions, noLaterThan, List.map_map]
  refine List.map_congr_left fun t _ => ?_
  simp only [Function.comp_apply]
  split <;> rfl

/-- What falls due is the first of the actions. -/
theorem actions_of_pop? {s rest : Schedule α} {target : Duration} {t : ScheduledJob α}
    (h : s.pop? target = some (t, rest)) : s.actions = t.job.action :: rest.actions := by
  simp only [actions, (pop?_eq_some h).1, List.map_cons]

/-- No pending job schedules others when it runs. -/
def IsPlain (s : Schedule α) : Prop :=
  ∀ t ∈ s.pending, t.job.followUps = []

theorem IsPlain.schedule {s : Schedule α} (h : s.IsPlain) (delay : Duration) (a : α) :
    (s.schedule delay (Job.single a)).IsPlain := by
  intro t mem
  rcases mem_insert.mp mem with rfl | old
  · rfl
  · exact h t old

/-- Of a plain schedule, only the job that runs is gone after it has run. -/
theorem IsPlain.pop? {s rest : Schedule α} {target : Duration} {t : ScheduledJob α}
    (h : s.IsPlain) (popped : s.pop? target = some (t, rest)) :
    rest.IsPlain ∧ rest.scheduleAll t.job.followUps = rest := by
  have pending := (pop?_eq_some popped).1
  constructor
  · intro other mem
    refine h other ?_
    rw [pending]
    exact List.mem_cons_of_mem _ mem
  · have alone : t.job.followUps = [] := by
      refine h t ?_
      rw [pending]
      exact List.mem_cons_self
    rw [alone]
    rfl

end BuildSupervisor.Schedule
