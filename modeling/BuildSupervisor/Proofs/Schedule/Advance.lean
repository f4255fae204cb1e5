import BuildSupervisor.Time.Schedule
/-!
# What a run of the clock keeps

`runUntil_induction` and `runUntil_map` are the only places where the recursion of
`Schedule.runUntil` is opened.  What every single job keeps, of the jobs that are left and of the
state they work on, is kept when the clock moves; and where every job does the same to a view of
the state as to the state, so does the clock.
-/

namespace BuildSupervisor.Schedule

variable {α : Type u} {σ : Type v}

/-- The job that is due first is the head of the list, and is taken off it. -/
theorem pop?_eq_some {s rest : Schedule α} {target : Duration} {t : ScheduledJob α}
    (h : s.pop? target = some (t, rest)) :
    s.pending = t :: rest.pending ∧ t.due ≤ target ∧
      rest = { s with now := t.due, pending := rest.pending } := by
  unfold pop? at h
  split at h
  · simp at h
  · rename_i first others heq
    split at h
    · rename_i due
      simp only [Option.some.injEq, Prod.mk.injEq] at h
      obtain ⟨rfl, rfl⟩ := h
      exact ⟨heq, due, rfl⟩
    · simp at h

/-- What every job keeps is kept by a run of the clock, which ends where nothing is due. -/
theorem runUntil_induction (run : Duration → α → σ → σ) (target : Duration)
    {P : Schedule α → σ → Prop}
    (step : ∀ s t rest state, s.pop? target = some (t, rest) → P s state →
      P (rest.scheduleAll t.job.followUps) (run t.due t.job.action state))
    (s : Schedule α) (state : σ) (h : P s state) :
    ∃ last, last.pop? target = none ∧
      (s.runUntil run target state).2.1 = { last with now := target } ∧
      P last (s.runUntil run target state).2.2 := by
  fun_induction runUntil run target s state with
  | case1 s state none => exact ⟨s, none, rfl, h⟩
  | case2 s state t rest popped lt count last result ih =>
    have kept := step s t rest state popped h
    simpa only [result] using ih kept

/-- A view of the state on which every job can work is what a run of the clock can work on. -/
theorem runUntil_map {τ : Type w} (run : Duration → α → σ → σ) (run' : Duration → α → τ → τ)
    (view : σ → τ) (h : ∀ time a state, view (run time a state) = run' time a (view state))
    (target : Duration) (s : Schedule α) (state : σ) :
    s.runUntil run' target (view state) =
      ((s.runUntil run target state).1, (s.runUntil run target state).2.1,
        view (s.runUntil run target state).2.2) := by
  fun_induction runUntil run target s state with
  | case1 s state none_ =>
    rw [runUntil]
    split
    · rfl
    · rename_i popped
      rw [none_] at popped
      cases popped
  | case2 s state t rest popped lt count last result ih =>
    rw [runUntil]
    split
    · rename_i none_
      rw [popped] at none_
      cases none_
    · rename_i t' rest' popped'
      rw [popped] at popped'
      cases popped'
      rw [← h, ih, result]

end BuildSupervisor.Schedule
