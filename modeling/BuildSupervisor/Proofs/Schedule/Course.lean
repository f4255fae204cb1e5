import BuildSupervisor.Proofs.Schedule.Unfolding
/-!
# The order in which jobs run

Everything that was ever put off is numbered in the order in which that was done.  `Orderly` says
that each such job has run or is pending, and that all of them, those that ran in front, stand in
the order of the times at which they are due, and at one time in the order of their numbers.  Each
step keeps that: one that puts a job off, and one in which a job runs.  So every course of a
schedule keeps it (`Course.orderly`), and with it every move of the clock does what is said of it
in `Sweep`.
-/

namespace BuildSupervisor

namespace ScheduledJob

variable {α : Type u} {a b : ScheduledJob α}

/-- The job is due earlier than another, or at the same time and was put off earlier. -/
def Before (a b : ScheduledJob α) : Prop :=
  a.due < b.due ∨ a.due = b.due ∧ a.number < b.number

theorem before_of_le (due : a.due ≤ b.due) (number : a.number < b.number) : a.Before b := by
  rcases Nat.lt_or_eq_of_le (Duration.le_def.mp due) with sooner | same
  · exact .inl sooner
  · exact .inr ⟨Duration.ext same, number⟩

theorem Before.due_le (h : a.Before b) : a.due ≤ b.due := by
  rcases h with sooner | ⟨same, _⟩
  · exact Duration.le_def.mpr (Nat.le_of_lt (Duration.lt_def.mp sooner))
  · exact Duration.le_def.mpr (Nat.le_of_eq (congrArg Duration.nanos same))

end ScheduledJob

/-- The jobs as they stand in a schedule that has put off `first` others before. -/
def numbered (first : Nat) : List (Putting α) → List (ScheduledJob α)
  | [] => []
  | p :: more => p.scheduled first :: numbered (first + 1) more

section Numbered

variable {α : Type u} {t : ScheduledJob α}

theorem numbered_append (first : Nat) (puts more : List (Putting α)) :
    numbered first (puts ++ more) =
      numbered first puts ++ numbered (first + puts.length) more := by
  induction puts generalizing first with
  | nil => rfl
  | cons p puts ih =>
    simp only [List.cons_append, numbered, ih, List.length_cons]
    rw [Nat.add_assoc, Nat.add_comm 1]

theorem number_of_mem_numbered {first : Nat} {puts : List (Putting α)}
    (mem : t ∈ numbered first puts) : first ≤ t.number ∧ t.number < first + puts.length := by
  induction puts generalizing first with
  | nil => cases mem
  | cons p puts ih =>
    rw [List.length_cons]
    rcases List.mem_cons.mp mem with rfl | mem
    · exact ⟨Nat.le_refl first, Nat.lt_add_of_pos_right (Nat.succ_pos _)⟩
    · have := ih mem
      omega

/-- No two jobs have the same number. -/
theorem nodup_numbered (first : Nat) (puts : List (Putting α)) :
    ((numbered first puts).map ScheduledJob.number).Nodup := by
  induction puts generalizing first with
  | nil => exact List.nodup_nil
  | cons p puts ih =>
    refine List.nodup_cons.mpr ⟨?_, ih (first + 1)⟩
    intro mem
    obtain ⟨t, mem, same⟩ := List.mem_map.mp mem
    have := (number_of_mem_numbered mem).1
    have : t.number = first := same
    omega

/-- A job is due after its delay, on the clock of the time at which it was put off. -/
theorem due_of_mem_numbered {first : Nat} {puts : List (Putting α)}
    (mem : t ∈ numbered first puts) : ∃ p, puts[t.number - first]? = some p ∧ t.job = p.job ∧
      t.due.nanos = min (p.clock.nanos + p.delay.nanos) maxNanos := by
  induction puts generalizing first with
  | nil => cases mem
  | cons p puts ih =>
    rcases List.mem_cons.mp mem with rfl | mem
    · refine ⟨p, ?_, rfl, rfl⟩
      simp only [Putting.scheduled, Nat.sub_self, List.getElem?_cons_zero]
    · obtain ⟨q, found, job, due⟩ := ih mem
      refine ⟨q, ?_, job, due⟩
      have := (number_of_mem_numbered mem).1
      have next : t.number - first = t.number - (first + 1) + 1 := by omega
      rw [next, List.getElem?_cons_succ, found]

end Numbered

namespace Schedule

open ScheduledJob (Before)

variable {α : Type u} {σ : Type v} {s rest last : Schedule α} {target : Duration}
  {t : ScheduledJob α} {puts : List (Putting α)} {done : List (ScheduledJob α)}

/-- A job that was put off later than all others stands behind those that are due no later. -/
theorem pairwise_before_insert {pending : List (ScheduledJob α)} (h : pending.Pairwise Before)
    (newest : ∀ other ∈ pending, other.number < t.number) : (insert t pending).Pairwise Before := by
  induction pending with
  | nil => exact List.pairwise_singleton _ t
  | cons other rest ih =>
    obtain ⟨first, behind⟩ := List.pairwise_cons.mp h
    obtain ⟨newer, newest⟩ := List.forall_mem_cons.mp newest
    unfold insert
    split
    · rename_i sooner
      refine List.pairwise_cons.mpr ⟨?_, h⟩
      intro later mem
      rcases List.mem_cons.mp mem with rfl | mem
      · exact .inl sooner
      · exact .inl (Nat.lt_of_lt_of_le sooner (first later mem).due_le)
    · rename_i notSooner
      refine List.pairwise_cons.mpr ⟨?_, ih behind newest⟩
      intro later mem
      rcases mem_insert.mp mem with rfl | mem
      · exact ScheduledJob.before_of_le (Duration.not_lt.mp notSooner) newer
      · exact first later mem

/-- Of all that was put off, these jobs have run, and the others are pending, in order. -/
structure Orderly (puts : List (Putting α)) (done : List (ScheduledJob α)) (s : Schedule α) :
    Prop where
  count : s.nextNumber = puts.length
  each : (done ++ s.pending).Perm (numbered 0 puts)
  order : (done ++ s.pending).Pairwise Before
  past : ∀ t ∈ done, t.due ≤ s.now
  future : ∀ t ∈ s.pending, s.now ≤ t.due

theorem orderly_new : Orderly [] [] (new : Schedule α) where
  count := rfl
  each := .nil
  order := .nil
  past _ mem := nomatch mem
  future _ mem := nomatch mem

namespace Orderly

theorem number_lt (h : Orderly puts done s) (mem : t ∈ done ++ s.pending) :
    t.number < s.nextNumber := by
  have := (number_of_mem_numbered (h.each.mem_iff.mp mem)).2
  rw [h.count]
  omega

theorem schedule (h : Orderly puts done s) (delay : Duration) (job : Job α) :
    Orderly (puts ++ [⟨s.now, delay, job⟩]) done (s.schedule delay job) := by
  obtain ⟨ranInOrder, inOrder, between⟩ := List.pairwise_append.mp h.order
  have fresh {other : ScheduledJob α} (mem : other ∈ done ++ s.pending) :
      other.number < s.nextNumber :=
    h.number_lt mem
  constructor
  case count => exact (congrArg (· + 1) h.count).trans (by simp)
  case each =>
    rw [numbered_append]
    have new : numbered (0 + puts.length) [(⟨s.now, delay, job⟩ : Putting α)] =
        [⟨s.now.add delay, s.nextNumber, job⟩] := by
      rw [Nat.zero_add, ← h.count]
      rfl
    rw [new]
    refine ((insert_perm _ s.pending).append_left done).trans ?_
    exact (List.perm_middle.trans (h.each.cons _)).trans
      (List.perm_append_singleton _ _).symm
  case order =>
    refine List.pairwise_append.mpr ⟨ranInOrder, ?_, ?_⟩
    · exact pairwise_before_insert inOrder fun other mem => fresh (List.mem_append_right _ mem)
    · intro ran mem other mem'
      rcases mem_insert.mp mem' with rfl | mem'
      · exact ScheduledJob.before_of_le
          (Duration.le_trans (h.past ran mem) (Duration.le_add_right _ _))
          (fresh (List.mem_append_left _ mem))
      · exact between ran mem other mem'
  case past => exact h.past
  case future =>
    intro other mem
    rcases mem_insert.mp mem with rfl | mem
    · exact Duration.le_add_right _ _
    · exact h.future other mem

theorem scheduleAll (jobs : List (Duration × Job α)) (h : Orderly puts done s) :
    Orderly (puts ++ jobs.map fun entry => ⟨s.now, entry.1, entry.2⟩) done
      (s.scheduleAll jobs) := by
  induction jobs generalizing puts s with
  | nil =>
    rw [List.map_nil, List.append_nil]
    exact h
  | cons entry jobs ih =>
    have step := ih (h.schedule entry.1 entry.2)
    rwa [List.append_assoc] at step

/-- A job that falls due runs next. -/
theorem pop (h : Orderly puts done s) (popped : s.pop? target = some (t, rest)) :
    Orderly puts (done ++ [t]) rest := by
  obtain ⟨split, _, there⟩ := pop?_eq_some popped
  have same : done ++ [t] ++ rest.pending = done ++ s.pending := by
    rw [split, List.append_assoc]
    rfl
  have now := now_of_pop? popped
  have reached : s.now ≤ t.due := by
    refine h.future t ?_
    rw [split]
    exact List.mem_cons_self
  constructor
  case count =>
    rw [there]
    exact h.count
  case each =>
    rw [same]
    exact h.each
  case order =>
    rw [same]
    exact h.order
  case past =>
    rw [now]
    intro other mem
    rcases List.mem_append.mp mem with mem | mem
    · exact Duration.le_trans (h.past other mem) reached
    · rw [List.mem_singleton.mp mem]
      exact Nat.le_refl _
  case future =>
    rw [now]
    intro other mem
    have inOrder := (List.pairwise_append.mp h.order).2.1
    rw [split] at inOrder
    exact (List.rel_of_pairwise_cons inOrder mem).due_le

theorem ordered (h : Orderly puts done s) : s.Ordered :=
  (List.pairwise_append.mp h.order).2.1.imp fun before => before.due_le

/-- The clock moves over a stretch in which nothing is due. -/
theorem settle (h : Orderly puts done s) (ahead : s.now ≤ target)
    (none_ : s.pop? target = none) : Orderly puts done { s with now := target } where
  count := h.count
  each := h.each
  order := h.order
  past other mem := Duration.le_trans (h.past other mem) ahead
  future _ mem := Nat.le_of_lt (Duration.lt_def.mp (h.ordered.lt_due none_ mem))

variable {perform : Performance α σ} {state final : σ} {ran : List (Execution α)}

/-- What runs when a job falls due, and what the job puts off. -/
theorem step (h : Orderly puts done s) (popped : s.pop? target = some (t, rest))
    (asked : List (Duration × Job α)) :
    Orderly (puts ++ Execution.puts ⟨rest.now, t, asked⟩) (done ++ [t])
      (rest.scheduleAll asked) :=
  (h.pop popped).scheduleAll asked

theorem unfolds (h : Orderly puts done s) (ahead : s.now ≤ target)
    (moves : Unfolds perform target s state ran last final) :
    Orderly (puts ++ ran.flatMap Execution.puts) (done ++ ran.map Execution.ran) last := by
  induction moves generalizing puts done with
  | settles none_ =>
    simpa only [List.flatMap_nil, List.map_nil, List.append_nil] using h.settle ahead none_
  | runs popped _ ih =>
    have others := ih (h.step popped _) (now_le_of_pop? popped _)
    simpa only [List.append_assoc, List.flatMap_cons, List.map_cons, List.singleton_append]
      using others

/-- The clock never goes back while it moves. -/
theorem readings (h : Orderly puts done s) (ahead : s.now ≤ target)
    (moves : Unfolds perform target s state ran last final) :
    (s.now :: (ran.map Execution.clock ++ [target])).Pairwise (· ≤ ·) := by
  induction moves generalizing puts done with
  | settles _ => exact List.pairwise_pair.mpr ahead
  | @runs s rest last t state final ran popped _ ih =>
    have others := ih (h.step popped _) (now_le_of_pop? popped _)
    rw [now_scheduleAll] at others
    have reached : s.now ≤ rest.now := by
      rw [now_of_pop? popped]
      refine h.future t ?_
      rw [(pop?_eq_some popped).1]
      exact List.mem_cons_self
    refine List.pairwise_cons.mpr ⟨?_, others⟩
    intro time mem
    rcases List.mem_cons.mp mem with rfl | mem
    · exact reached
    · exact Duration.le_trans reached (List.rel_of_pairwise_cons others mem)

end Orderly

/-! ## Courses -/

/-- What can become of a new schedule when jobs are put off, with whatever delays, and its clock is
    moved, by whatever durations, as long as each move comes to an end.  The state may be another
    one whenever the clock is moved. -/
inductive Course (perform : Performance α σ) :
    List (Putting α) → List (Execution α) → Schedule α → Prop where
  | new : Course perform [] [] Schedule.new
  | puts {puts : List (Putting α)} {ran : List (Execution α)} {s : Schedule α} (delay : Duration)
      (job : Job α) : Course perform puts ran s →
      Course perform (puts ++ [⟨s.now, delay, job⟩]) ran (s.schedule delay job)
  | moves {puts : List (Putting α)} {ran more : List (Execution α)} {s last : Schedule α}
      {state final : σ} (by_ : Duration) : Course perform puts ran s →
      Unfolds perform (s.now.add by_) s state more last final →
      Course perform (puts ++ more.flatMap Execution.puts) (ran ++ more) last

/-- What was put off, and what has run, in order; `s` is what has become of the schedule. -/
structure History (puts : List (Putting α)) (ran : List (Execution α)) (s : Schedule α) :
    Prop where
  /-- Each job that was put off has run or is pending. -/
  each : (ran.map Execution.ran ++ s.pending).Perm (numbered 0 puts)
  once : ((ran.map Execution.ran ++ s.pending).map ScheduledJob.number).Nodup
  due : ∀ t ∈ ran.map Execution.ran ++ s.pending, ∃ p, puts[t.number]? = some p ∧
    t.job = p.job ∧ t.due.nanos = min (p.clock.nanos + p.delay.nanos) maxNanos
  order : (ran.map Execution.ran ++ s.pending).Pairwise Before
  clock : ∀ e ∈ ran, e.clock = e.ran.due
  readings : (ran.map Execution.clock ++ [s.now]).Pairwise (· ≤ ·)

/-- The jobs that were put off while `ran` ran. -/
def onTheWay (s : Schedule α) (ran : List (Execution α)) : List (ScheduledJob α) :=
  numbered s.nextNumber (ran.flatMap Execution.puts)

/-- A move of the clock by a duration, in which `ran` ran, and which has left `last`. -/
structure Sweep (s : Schedule α) (by_ : Duration) (ran : List (Execution α))
    (last : Schedule α) : Prop where
  reached : last.now.nanos = min (s.now.nanos + by_.nanos) maxNanos
  /-- What ran is what is due by now, of all that was pending or was put off on the way. -/
  exactly : (ran.map Execution.ran).Perm
    ((s.pending ++ s.onTheWay ran).filter fun t => t.due ≤ last.now)
  left : last.pending.Perm ((s.pending ++ s.onTheWay ran).filter fun t => last.now < t.due)
  once : (ran.map fun e => e.ran.number).Nodup
  order : (ran.map Execution.ran).Pairwise Before
  clock : ∀ e ∈ ran, e.clock = e.ran.due
  readings : (s.now :: (ran.map Execution.clock ++ [last.now])).Pairwise (· ≤ ·)
  later : ∀ t ∈ last.pending, last.now < t.due

section Course

variable {perform : Performance α σ} {state final : σ} {ran more : List (Execution α)}

theorem Course.orderly (h : Course perform puts ran s) :
    Orderly puts (ran.map Execution.ran) s := by
  induction h with
  | new => exact orderly_new
  | puts delay job _ ih => exact ih.schedule delay job
  | moves by_ _ moves ih =>
    rw [List.map_append]
    exact ih.unfolds (Duration.le_add_right _ _) moves

theorem Course.clock_eq (h : Course perform puts ran s) : ∀ e ∈ ran, e.clock = e.ran.due := by
  induction h with
  | new => exact fun _ mem => nomatch mem
  | puts _ _ _ ih => exact ih
  | moves _ _ moves ih =>
    intro e mem
    rcases List.mem_append.mp mem with mem | mem
    · exact ih e mem
    · exact moves.clock_eq e mem

/-- Whatever was done to a schedule, all that was put off runs once, and in order. -/
theorem Course.history (h : Course perform puts ran s) : History puts ran s := by
  have orderly := h.orderly
  have clock := h.clock_eq
  constructor
  case each => exact orderly.each
  case once => exact (orderly.each.map ScheduledJob.number).nodup_iff.mpr (nodup_numbered 0 puts)
  case due => exact fun t mem => due_of_mem_numbered (orderly.each.mem_iff.mp mem)
  case order => exact orderly.order
  case clock => exact clock
  case readings =>
    have times : ran.map Execution.clock = (ran.map Execution.ran).map ScheduledJob.due := by
      rw [List.map_map]
      exact List.map_congr_left clock
    rw [times]
    refine List.pairwise_append.mpr ⟨?_, List.pairwise_singleton _ _, ?_⟩
    · exact ((List.pairwise_append.mp orderly.order).1.imp fun before => before.due_le).map _
        fun _ _ le => le
    · intro time mem now mem'
      rw [List.mem_singleton.mp mem']
      obtain ⟨t, there, rfl⟩ := List.mem_map.mp mem
      exact orderly.past t there

/-- Of a list that is split at a time, the part that is due by then, and the rest. -/
theorem filter_due {time : Duration} {early late : List (ScheduledJob α)}
    (early_ : ∀ t ∈ early, t.due ≤ time) (late_ : ∀ t ∈ late, time < t.due) :
    (early ++ late).filter (fun t => t.due ≤ time) = early ∧
      (early ++ late).filter (fun t => time < t.due) = late := by
  have notEarly (t : ScheduledJob α) (mem : t ∈ late) : ¬t.due ≤ time :=
    Nat.not_le_of_lt (late_ t mem)
  have notLate (t : ScheduledJob α) (mem : t ∈ early) : ¬time < t.due :=
    Duration.not_lt.mpr (early_ t mem)
  constructor
  · rw [List.filter_append, List.filter_eq_self.mpr (by simpa using early_),
      List.filter_eq_nil_iff.mpr (by simpa using notEarly), List.append_nil]
  · rw [List.filter_append, List.filter_eq_nil_iff.mpr (by simpa using notLate),
      List.filter_eq_self.mpr (by simpa using late_), List.nil_append]

/-- A move of the clock, whatever was done to the schedule before. -/
theorem Course.sweep (h : Course perform puts ran s) {by_ : Duration}
    (moves : Unfolds perform (s.now.add by_) s state more last final) :
    Sweep s by_ more last := by
  have before := h.orderly
  have after := (h.moves by_ moves).orderly
  have history := (h.moves by_ moves).history
  have now : last.now = s.now.add by_ := moves.now_eq
  have later (t : ScheduledJob α) (mem : t ∈ last.pending) : last.now < t.due := by
    rw [now]
    exact after.ordered.lt_due moves.pop?_eq_none mem
  have past (t : ScheduledJob α) (mem : t ∈ more.map Execution.ran) : t.due ≤ last.now := by
    refine after.past t ?_
    rw [List.map_append]
    exact List.mem_append_right _ mem
  -- All that ran before is the same on both sides, so that it can be left out.
  have all : (more.map Execution.ran ++ last.pending).Perm (s.pending ++ s.onTheWay more) := by
    refine (List.perm_append_left_iff (ran.map Execution.ran)).mp ?_
    have each := after.each
    rw [List.map_append, List.append_assoc, numbered_append, Nat.zero_add, ← before.count] at each
    rw [← List.append_assoc (ran.map Execution.ran) s.pending]
    exact each.trans (before.each.symm.append_right _)
  obtain ⟨early, late⟩ := filter_due past later
  have inOrder : ((ran ++ more).map Execution.ran).Pairwise Before :=
    (List.pairwise_append.mp after.order).1
  have once := history.once
  rw [List.map_append, List.map_append, List.map_append] at once
  rw [List.map_append] at inOrder
  constructor
  case reached =>
    rw [now]
    rfl
  case exactly =>
    rw [← early]
    exact all.filter _
  case left =>
    rw [← late]
    exact all.filter _
  case once =>
    have mine := (List.nodup_append.mp (List.nodup_append.mp once).1).2.1
    rwa [List.map_map] at mine
  case order => exact (List.pairwise_append.mp inOrder).2.1
  case clock => exact moves.clock_eq
  case readings =>
    rw [now]
    exact before.readings (Duration.le_add_right _ _) moves
  case later => exact later

end Course

end Schedule

end BuildSupervisor
