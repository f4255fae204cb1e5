import BuildSupervisor.Proofs.Schedule.Order
/-!
# How a move of the clock unfolds

A job may decide, from the state it works on, what it puts off, so that a move of the clock need
not come to an end.  `Unfolds` says that it does, and lists the jobs that ran on the way.

There is at most one way in which it unfolds (`Unfolds.eq`), two moves one after the other unfold
like one (`Unfolds.trans`), and where every job carries what it puts off with it, as in
`Schedule.advance`, a move always comes to an end (`unfolds_runUntil`).
-/

namespace BuildSupervisor

/-- A job that is put off: what the clock shows meanwhile, and the delay. -/
structure Putting (α : Type u) where
  clock : Duration
  delay : Duration
  job : Job α

/-- The job as it stands in a schedule. -/
def Putting.scheduled (p : Putting α) (number : Nat) : ScheduledJob α :=
  ⟨p.clock.add p.delay, number, p.job⟩

/-- A job that ran: what the clock showed meanwhile, and what the job put off. -/
structure Execution (α : Type u) where
  clock : Duration
  ran : ScheduledJob α
  asked : List (Duration × Job α)

/-- What the job put off, at the time at which it ran. -/
def Execution.puts (e : Execution α) : List (Putting α) :=
  e.asked.map fun entry => ⟨e.clock, entry.1, entry.2⟩

namespace Schedule

variable {α : Type u} {σ : Type v} {τ : Type w} {s rest last : Schedule α} {target : Duration}
  {t : ScheduledJob α}

/-- What a job does when it runs, at the time the clock shows: it puts other jobs off, and changes
    the state. -/
abbrev Performance (α : Type u) (σ : Type v) : Type (max u v) :=
  Duration → Job α → σ → List (Duration × Job α) × σ

variable {perform : Performance α σ} {state final : σ} {ran : List (Execution α)}

/-- A move of the clock to `target` runs these jobs, one after the other. -/
inductive Unfolds (perform : Performance α σ) (target : Duration) :
    Schedule α → σ → List (Execution α) → Schedule α → σ → Prop where
  | settles {s : Schedule α} {state : σ} : s.pop? target = none →
      Unfolds perform target s state [] { s with now := target } state
  | runs {s rest last : Schedule α} {t : ScheduledJob α} {state final : σ}
      {ran : List (Execution α)} : s.pop? target = some (t, rest) →
      Unfolds perform target (rest.scheduleAll (perform rest.now t.job state).1)
        (perform rest.now t.job state).2 ran last final →
      Unfolds perform target s state
        (⟨rest.now, t, (perform rest.now t.job state).1⟩ :: ran) last final

/-- What falls due first does not depend on the time from which the clock moves. -/
theorem pop?_at (s : Schedule α) (time target : Duration) :
    { s with now := time }.pop? target = s.pop? target :=
  rfl

/-- What falls due by one time falls due by every later one. -/
theorem pop?_of_le {later : Duration} (h : target ≤ later)
    (popped : s.pop? target = some (t, rest)) : s.pop? later = some (t, rest) := by
  obtain ⟨split, due, there⟩ := pop?_eq_some popped
  have due : t.due ≤ later := Duration.le_trans due h
  unfold pop?
  rw [split]
  dsimp only
  rw [if_pos due, ← there]

/-- The clock shows the time at which the job is due. -/
theorem now_of_pop? (popped : s.pop? target = some (t, rest)) : rest.now = t.due := by
  rw [(pop?_eq_some popped).2.2]

@[simp] theorem now_scheduleAll (s : Schedule α) (jobs : List (Duration × Job α)) :
    (s.scheduleAll jobs).now = s.now := by
  induction jobs generalizing s with
  | nil => rfl
  | cons entry jobs ih => exact ih _

/-- The clock does not pass the time it is moved to while a job runs. -/
theorem now_le_of_pop? (popped : s.pop? target = some (t, rest))
    (asked : List (Duration × Job α)) : (rest.scheduleAll asked).now ≤ target := by
  rw [now_scheduleAll, now_of_pop? popped]
  exact (pop?_eq_some popped).2.1

namespace Unfolds

/-- A move of the clock unfolds in one way only. -/
theorem eq {ran' : List (Execution α)} {last' : Schedule α} {final' : σ}
    (h : Unfolds perform target s state ran last final)
    (h' : Unfolds perform target s state ran' last' final') :
    ran = ran' ∧ last = last' ∧ final = final' := by
  induction h generalizing ran' last' final' with
  | settles none_ =>
    cases h' with
    | settles _ => exact ⟨rfl, rfl, rfl⟩
    | runs popped _ => cases none_.symm.trans popped
  | runs popped _ ih =>
    cases h' with
    | settles none_ => cases none_.symm.trans popped
    | runs popped' others =>
      cases popped.symm.trans popped'
      obtain ⟨rfl, rfl, rfl⟩ := ih others
      exact ⟨rfl, rfl, rfl⟩

/-- The time from which the clock moves does not show in how its move unfolds. -/
theorem at_ (time : Duration) (h : Unfolds perform target { s with now := time } state ran last
    final) : Unfolds perform target s state ran last final := by
  cases h with
  | settles none_ => exact .settles ((pop?_at s time target).symm.trans none_)
  | runs popped others => exact .runs ((pop?_at s time target).symm.trans popped) others

/-- Two moves of the clock, one after the other, unfold like the one that goes as far. -/
theorem trans {later : Duration} {ran' : List (Execution α)} {last' : Schedule α} {final' : σ}
    (h : Unfolds perform target s state ran last final) (le : target ≤ later)
    (h' : Unfolds perform later last final ran' last' final') :
    Unfolds perform later s state (ran ++ ran') last' final' := by
  induction h with
  | settles _ => exact h'.at_ target
  | runs popped _ ih => exact .runs (pop?_of_le le popped) (ih h')

/-- A move unfolds alike on every view of the state on which the jobs do the same. -/
theorem view {perform' : Performance α τ} (view : σ → τ)
    (same : ∀ time job state, perform' time job (view state) =
      ((perform time job state).1, view (perform time job state).2))
    (h : Unfolds perform target s state ran last final) :
    Unfolds perform' target s (view state) ran last (view final) := by
  induction h with
  | settles none_ => exact .settles none_
  | @runs s rest last t state final ran popped _ ih =>
    have step := same rest.now t.job state
    have asked : (perform' rest.now t.job (view state)).1 = (perform rest.now t.job state).1 := by
      rw [step]
    rw [← asked]
    refine .runs popped ?_
    rw [step]
    exact ih

/-- While a job runs, the clock shows the time at which it is due. -/
theorem clock_eq (h : Unfolds perform target s state ran last final) :
    ∀ e ∈ ran, e.clock = e.ran.due := by
  induction h with
  | settles _ => exact fun _ mem => nomatch mem
  | runs popped _ ih => exact List.forall_mem_cons.mpr ⟨now_of_pop? popped, ih⟩

/-- The clock shows the time it was moved to afterwards. -/
theorem now_eq (h : Unfolds perform target s state ran last final) : last.now = target := by
  induction h with
  | settles _ => rfl
  | runs _ _ ih => exact ih

/-- Nothing is left that is due by now. -/
theorem pop?_eq_none (h : Unfolds perform target s state ran last final) :
    last.pop? target = none := by
  induction h with
  | settles none_ => exact none_
  | runs _ _ ih => exact ih

end Unfolds

/-! ## Jobs that carry what they put off with them -/

/-- Does what `run` says, and puts off what follows the job. -/
def performing (run : Duration → α → σ → σ) : Performance α σ :=
  fun time job state => (job.followUps, run time job.action state)

/-- A move of the clock comes to an end, and counts the jobs that ran. -/
theorem unfolds_runUntil (run : Duration → α → σ → σ) (target : Duration) (s : Schedule α)
    (state : σ) :
    ∃ ran : List (Execution α), (s.runUntil run target state).1 = ran.length ∧
      Unfolds (performing run) target s state ran (s.runUntil run target state).2.1
        (s.runUntil run target state).2.2 := by
  fun_induction runUntil run target s state with
  | case1 s state none_ => exact ⟨[], rfl, .settles none_⟩
  | case2 s state t rest popped lt count last result ih =>
    obtain ⟨ran, counted, unfolds⟩ := ih
    rw [result] at counted unfolds
    rw [← now_of_pop? popped] at unfolds
    exact ⟨_ :: ran, congrArg (· + 1) counted, .runs popped unfolds⟩

end Schedule

end BuildSupervisor
