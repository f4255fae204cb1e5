import BuildSupervisor.Time.Duration
/-!
# Schedules

A schedule holds jobs that are due later, on a clock that only moves when it is told to.  Moving
the clock forward runs what falls due on the way, earliest first and of several due at one time
the one scheduled first; the clock shows the time at which a job is due while the job runs.

A job may schedule others when it runs.  What it schedules is part of the job, so that a job is
a finite tree and moving the clock always comes to an end.
-/

namespace BuildSupervisor

/-- Something to do, and the jobs that are scheduled, with their delays, when it is done. -/
inductive Job (α : Type u) where
  | mk (action : α) (followUps : List (Duration × Job α))

namespace Job

def action : Job α → α
  | .mk a _ => a

/-- What is scheduled when the job runs. -/
def followUps : Job α → List (Duration × Job α)
  | .mk _ fs => fs

/-- A job that schedules nothing. -/
def single (a : α) : Job α :=
  .mk a []

mutual

def size : Job α → Nat
  | .mk _ followUps => 1 + sizeAll followUps

/-- The number of jobs in the trees of a list of jobs. -/
def sizeAll : List (Duration × Job α) → Nat
  | [] => 0
  | (_, job) :: rest => job.size + sizeAll rest

end

end Job

/-- A job in a schedule: when it is due, and its number in the order of scheduling. -/
structure ScheduledJob (α : Type u) where
  due : Duration
  number : Nat
  job : Job α

/-- Jobs that are due later, in the order in which they will run. -/
structure Schedule (α : Type u) where
  now : Duration
  nextNumber : Nat
  pending : List (ScheduledJob α)

namespace Schedule

variable {α : Type u}

/-- Nothing is scheduled, and the clock has not moved yet. -/
def new : Schedule α :=
  ⟨Duration.zero, 0, []⟩

/-- Puts a job behind all that are due no later. -/
def insert (t : ScheduledJob α) : List (ScheduledJob α) → List (ScheduledJob α)
  | [] => [t]
  | other :: rest => if t.due < other.due then t :: other :: rest else other :: insert t rest

def schedule (s : Schedule α) (delay : Duration) (job : Job α) : Schedule α :=
  { s with
    nextNumber := s.nextNumber + 1
    pending := insert ⟨s.now.add delay, s.nextNumber, job⟩ s.pending }

/-- Brings jobs that are due later than `latest` forward to that time. -/
def noLaterThan (s : Schedule α) (latest : Duration) : Schedule α :=
  { s with
    pending := s.pending.map fun t => if latest < t.due then { t with due := latest } else t }

/-- Schedules several jobs, in order. -/
def scheduleAll (s : Schedule α) : List (Duration × Job α) → Schedule α
  | [] => s
  | (delay, job) :: rest => scheduleAll (s.schedule delay job) rest

def load (pending : List (ScheduledJob α)) : Nat :=
  match pending with
  | [] => 0
  | t :: rest => t.job.size + load rest

theorem load_insert (t : ScheduledJob α) (pending : List (ScheduledJob α)) :
    load (insert t pending) = t.job.size + load pending := by
  induction pending with
  | nil => rfl
  | cons other rest ih =>
    simp only [insert]
    split
    · rfl
    · simp only [load, ih]
      omega

theorem load_scheduleAll (jobs : List (Duration × Job α)) (s : Schedule α) :
    load (s.scheduleAll jobs).pending = Job.sizeAll jobs + load s.pending := by
  induction jobs generalizing s with
  | nil => simp [scheduleAll, Job.sizeAll]
  | cons entry rest ih =>
    obtain ⟨delay, job⟩ := entry
    simp only [scheduleAll, ih, schedule, load_insert, Job.sizeAll]
    omega

/-- Takes the job that is due first, if it is due no later than `target`, and moves the clock to
    the time at which it is due. -/
def pop? (s : Schedule α) (target : Duration) : Option (ScheduledJob α × Schedule α) :=
  match s.pending with
  | [] => none
  | t :: rest =>
    if t.due ≤ target then some (t, { s with now := t.due, pending := rest }) else none

theorem load_pop? {s rest : Schedule α} {target : Duration} {t : ScheduledJob α}
    (h : s.pop? target = some (t, rest)) : load s.pending = t.job.size + load rest.pending := by
  unfold pop? at h
  split at h
  · simp at h
  · rename_i first others heq
    split at h
    · simp only [Option.some.injEq, Prod.mk.injEq] at h
      rw [heq, ← h.1, ← h.2]
      rfl
    · simp at h

theorem size_eq (t : Job α) : t.size = 1 + Job.sizeAll t.followUps := by
  cases t
  simp [Job.size, Job.followUps]

/-- Runs every job that is due no later than `target`, and then moves the clock there.  `run`
    does what a job does at the time the clock shows; the answer begins with the number of jobs
    that were run. -/
def runUntil (run : Duration → α → σ → σ) (target : Duration) (s : Schedule α) (state : σ) :
    Nat × Schedule α × σ :=
  match h : s.pop? target with
  | none => (0, { s with now := target }, state)
  | some (t, rest) =>
    have : load (rest.scheduleAll t.job.followUps).pending < load s.pending := by
      rw [load_scheduleAll, load_pop? h, size_eq]
      omega
    let (count, result) :=
      runUntil run target (rest.scheduleAll t.job.followUps) (run t.due t.job.action state)
    (count + 1, result)
termination_by load s.pending

/-- Moves the clock forward by a duration and runs what falls due on the way. -/
def advance (run : Duration → α → σ → σ) (s : Schedule α) (by_ : Duration) (state : σ) :
    Nat × Schedule α × σ :=
  s.runUntil run (s.now.add by_) state

end Schedule

end BuildSupervisor
