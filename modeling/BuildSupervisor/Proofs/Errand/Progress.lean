import BuildSupervisor.Proofs.Errand.Course
import BuildSupervisor.Proofs.Service.Waiting
/-!
# Errands come to an end

Whatever the service, the invoker or the clock does makes the `Crew.debt` of an errand less, and as
long as the errand is not over one of them can do something.  So the invoker comes back from every
run in which nobody is kept from acting for ever.
-/

namespace BuildSupervisor

/-- Who acts in an errand. -/
inductive Actor where
  | service
  | clock
  | invoker
  deriving DecidableEq, Repr

/-- Who acts in the turn; the turns in which time goes by belong to nobody. -/
def Turn.actor? : Turn → Option Actor
  | .serve => some .service
  | .arrive _ => some .clock
  | .proceed 0 _ => some .invoker
  | _ => none

/-- Whoever acts in an errand has a turn of it. -/
theorem Turn.isOwn_of_actor? {t : Turn} {a : Actor} (actor : t.actor? = some a) :
    t.isOwn = true := by
  cases t with
  | serve => rfl
  | arrive target => rfl
  | proceed index first =>
    cases index with
    | zero => rfl
    | succ index => cases actor
  | _ => cases actor

theorem Turn.eq_serve_of_actor? {t : Turn} (actor : t.actor? = some .service) : t = .serve := by
  cases t with
  | serve => rfl
  | proceed index first => cases index <;> cases actor
  | _ => cases actor

/-! ## What there is to do -/

theorem Schedule.length_insert {α : Type u} (t : ScheduledJob α) (pending : List (ScheduledJob α)) :
    (insert t pending).length = pending.length + 1 := by
  induction pending with
  | nil => rfl
  | cons other rest ih =>
    unfold insert
    split
    · rfl
    · exact congrArg (· + 1) ih

/-- How many tasks are scheduled. -/
def Service.scheduled (v : Service) : Nat :=
  v.session.schedule.pending.length

/-- A command schedules at most one task. -/
theorem Service.scheduled_handle (v : Service) (ticket : Ticket) (command : Command) :
    (v.handle ticket command).scheduled ≤ v.scheduled + 1 := by
  have hastened (u : Service) : u.hasten.scheduled = u.scheduled := List.length_map _
  cases command with
  | start request =>
    have timing := v.session.timing_start v.located request
    have same : (v.handle ticket (.start request)).scheduled =
        (v.session.start v.located request).2.schedule.pending.length := hastened _
    rw [same]
    generalize (v.session.start v.located request).2 = t at timing
    cases timing with
    | kept _ schedule => exact Nat.le_succ_of_le (Nat.le_of_eq (by rw [schedule]; rfl))
    | rested _ schedule => exact Nat.le_succ_of_le (Nat.le_of_eq (by rw [schedule]; rfl))
    | armed _ _ _ _ schedule =>
      rw [schedule, Session.putOffAtStart]
      split
      · exact Nat.le_of_eq (Schedule.length_insert _ _)
      · exact Nat.le_succ _
  | buildComplete succeeded said =>
    have same : (v.handle ticket (.buildComplete succeeded said)).scheduled =
        (v.session.onBuildComplete succeeded said).2.schedule.pending.length := hastened _
    rw [same]
    unfold Session.onBuildComplete
    split
    · exact Nat.le_succ _
    · split
      · exact Nat.le_succ _
      · exact Nat.le_of_eq (Schedule.length_insert _ _)
  | reset => exact Nat.le_succ _
  | status => exact Nat.le_succ _
  | shutdown => exact Nat.le_succ _

theorem Service.length_inbox_handle (v : Service) (ticket : Ticket) (command : Command) :
    (v.handle ticket command).inbox.length ≤ v.inbox.length := by
  cases command with
  | shutdown => exact Nat.zero_le _
  | _ => exact Nat.le_refl _

/-- What the service has to do, before it waits and after that; a command may put a task off. -/
def Service.load (v : Service) : Nat × Nat :=
  (v.arrears.1 + 2 * v.inbox.length + 2 * v.scheduled, v.arrears.2)

/-- A turn leaves the service less to do. -/
theorem Service.load_step {v w : Service} (step : v.step? = some w) :
    Prod.Lex (· < ·) (· < ·) w.load v.load := by
  have less := arrears_step step
  have cases_ := v.step_cases
  rw [step] at cases_
  have kept (inbox : w.inbox.length ≤ v.inbox.length) (scheduled : w.scheduled = v.scheduled) :
      Prod.Lex (· < ·) (· < ·) w.load v.load := by
    rw [Prod.lex_def] at less ⊢
    simp only [load, scheduled]
    omega
  cases cases_ with
  | heard _ _ looked =>
    exact kept (Nat.le_of_eq (congrArg List.length looked.inbox))
      (congrArg (fun s => s.pending.length) looked.schedule)
  | @did u task _ _ _ _ looked =>
    refine kept (Nat.le_of_eq (congrArg List.length looked.inbox)) ?_
    change (u.session.runDeferred task).schedule.pending.length = _
    rw [Session.schedule_runDeferred, looked.schedule]
    rfl
  | @took u ticket command rest _ _ arrived inbox looked =>
    refine less_of_fst ?_
    have fewer := arrears_handle { u with inbox := rest } ticket command
    have more := scheduled_handle { u with inbox := rest } ticket command
    have left := length_inbox_handle { u with inbox := rest } ticket command
    have scheduled : ({ u with inbox := rest } : Service).scheduled = v.scheduled :=
      congrArg (fun s => s.pending.length) looked.schedule
    have before : ({ u with inbox := rest } : Service).arrears.1 + 1 = v.arrears.1 := by
      simp only [arrears, looked.stopped, looked.arrived, inbox, List.length_cons]
      omega
    have waiting : v.inbox.length = rest.length + 1 := by rw [inbox, List.length_cons]
    simp only [load, waiting]
    dsimp only at left
    omega
  | @ended u _ _ looked =>
    exact kept (Nat.zero_le _) (congrArg (fun s => s.pending.length) looked.schedule)

namespace Crew

/-- What there is to do for a single invoker and its service. -/
def debt (c : Crew) : (Nat × Nat) × Nat × Nat :=
  ((c.invokers.head?.map Invoker.remaining).getD (0, 0), c.service.load)

/-- One who has less to do is closer to the end. -/
def Less (a b : (Nat × Nat) × Nat × Nat) : Prop :=
  Prod.Lex (Prod.Lex (· < ·) (· < ·)) (Prod.Lex (· < ·) (· < ·)) a b

theorem less_wellFounded : WellFounded Less := by
  have nat := Nat.lt_wfRel.wf
  exact (Prod.lex ⟨_, (Prod.lex ⟨_, nat⟩ ⟨_, nat⟩).wf⟩ ⟨_, (Prod.lex ⟨_, nat⟩ ⟨_, nat⟩).wf⟩).wf

/-- Someone can do something in the crew. -/
def CanAct (c : Crew) (a : Actor) : Prop :=
  ∃ t : Turn, t.actor? = some a ∧ (c.turn? t).isSome = true

/-- Someone does something in the turn. -/
def Acts (c : Crew) (t : Turn) : Prop :=
  t.actor?.isSome = true ∧ (c.turn? t).isSome = true

instance (c : Crew) (t : Turn) : Decidable (Acts c t) :=
  inferInstanceAs (Decidable (_ ∧ _))

theorem isSome_turn?_withSchedule (c : Crew) (schedule : Schedule Deferred)
    (same : schedule.pending = c.service.session.schedule.pending) {t : Turn} {a : Actor}
    (actor : t.actor? = some a) :
    (({ c with service := c.service.withSchedule schedule } : Crew).turn? t).isSome =
      (c.turn? t).isSome := by
  cases t with
  | serve =>
    simp only [turn?, Option.isSome_map, Service.isSome_step?_withSchedule]
  | arrive target =>
    simp only [turn?, Service.arrive?, Option.isSome_map, Service.withSchedule, Schedule.pop?, same]
    split
    · rfl
    · split <;> rfl
  | proceed index first =>
    simp only [turn?, proceed?]
    cases c.invokers[index]? with
    | none => rfl
    | some i => simp only [Option.bind_some, Option.isSome_map, Invoker.step?_withSchedule]
  | elapse by_ => cases actor
  | join request command launch => cases actor
  | order o => cases actor
  | write chunk => cases actor
  | closeConsole => cases actor
  | release => cases actor

/-- Where all turns of a kind leave less to do, a run can go on with such turns until none is
    possible. -/
theorem exists_stuck (c : Crew) {I : List Turn → Prop} {P : Turn → Prop}
    (keep : ∀ turns t, I turns → P t → I (turns ++ [t]))
    (less : ∀ turns t, I turns → P t → (c.run turns).Acts t →
      Less ((c.run turns).turn t).debt (c.run turns).debt)
    (turns : List Turn) (h : I turns) :
    ∃ more, I (turns ++ more) ∧ ∀ t, P t → ¬ (c.run (turns ++ more)).Acts t := by
  -- Every further turn that does something leaves less to do, so there is a last one.
  induction there : (c.run turns).debt using less_wellFounded.induction generalizing turns with
  | _ d ih =>
    by_cases stuck : ∃ t, P t ∧ (c.run turns).Acts t
    · obtain ⟨t, fits, acts⟩ := stuck
      have fewer := less turns t h fits acts
      rw [there, ← run_concat] at fewer
      obtain ⟨more, kept, none_⟩ := ih _ fewer (turns ++ [t]) (keep turns t h fits) rfl
      rw [List.append_assoc] at kept none_
      exact ⟨[t] ++ more, kept, none_⟩
    · refine ⟨[], ?_, ?_⟩
      · rw [List.append_nil]
        exact h
      · rw [List.append_nil]
        exact fun t fits acts => stuck ⟨t, fits, acts⟩

end Crew

namespace Errand

variable {e : Errand} {lossless : Prop} {stage : Stage} {phase : InvokerPhase}
  {chunks : List Chunk} {c : Crew} {v w : Service} {t : Turn}

/-- Who acts leaves less to do. -/
theorem less_of_acts (h : At e lossless stage phase chunks c) (acts : c.Acts t) :
    Crew.Less (c.turn t).debt c.debt := by
  obtain ⟨actor, possible⟩ := acts
  obtain ⟨d, there⟩ := Option.isSome_iff_exists.mp possible
  have turned : c.turn t = d := by rw [Crew.turn, there, Option.getD_some]
  rw [turned]
  cases t with
  | serve =>
    obtain ⟨w, step, rfl⟩ := Option.map_eq_some_iff.mp there
    exact .right _ (Service.load_step step)
  | arrive target =>
    obtain ⟨w, arrive, rfl⟩ := Option.map_eq_some_iff.mp there
    obtain ⟨⟨t, rest⟩, popped, rfl⟩ := Option.map_eq_some_iff.mp arrive
    have fewer : c.service.scheduled = rest.pending.length + 1 := by
      rw [Service.scheduled, (Schedule.pop?_eq_some popped).1, List.length_cons]
    refine .right _ (Service.less_of_fst ?_)
    simp only [Service.load, fewer]
    simp only [Service.arrears, Service.scheduled, h.serves.running, Bool.false_eq_true, if_false,
      List.length_append, List.length_singleton]
    omega
  | proceed index first =>
    obtain ⟨i, who, there⟩ := Option.bind_eq_some_iff.mp there
    obtain ⟨⟨j, w⟩, step, rfl⟩ := Option.map_eq_some_iff.mp there
    obtain ⟨_, invokers, _⟩ := h.invoker
    cases index with
    | succ index => cases actor
    | zero =>
      rw [invokers] at who
      cases who
      unfold Crew.debt
      rw [invokers]
      exact .left _ _ (Invoker.remaining_step step)
  | _ => cases actor

/-- A run can go on with turns of a kind until none of them is possible. -/
theorem exists_stuck (e : Errand) {I : List Turn → Prop} {P : Turn → Prop}
    (own : ∀ turns, I turns → ∀ t ∈ turns, t.isOwn = true)
    (keep : ∀ turns t, I turns → P t → I (turns ++ [t])) (turns : List Turn) (h : I turns) :
    ∃ more, I (turns ++ more) ∧ ∀ t, P t → ¬ (e.after (turns ++ more)).Acts t := by
  refine e.start.exists_stuck keep ?_ turns h
  intro turns t h _ acts
  obtain ⟨_, _, _, there, _⟩ := e.at_run (own turns h)
  exact less_of_acts there acts

/-- Where nobody acts, everyone can do what they could do before. -/
theorem canAct_of_idle (own : t.isOwn = true) (idle : ¬ c.Acts t) :
    (c.turn t).debt = c.debt ∧ ∀ a, c.CanAct a → (c.turn t).CanAct a := by
  rcases c.turn_cases t with same | moved
  · rw [same]
    exact ⟨rfl, fun _ can => can⟩
  · have nobody : t.actor? = none := by
      cases actor : t.actor? with
      | none => rfl
      | some a => exact absurd ⟨by rw [actor]; rfl, by rw [moved]; rfl⟩ idle
    cases t with
    | elapse by_ =>
      simp only [Crew.turn?, Crew.elapse?] at moved
      split at moved
      · cases moved
      · rw [← Option.some.inj moved]
        refine ⟨rfl, ?_⟩
        rintro a ⟨t, actor, can⟩
        refine ⟨t, actor, ?_⟩
        rw [← can]
        have moved := Crew.isSome_turn?_withSchedule c
          { c.service.session.schedule with now := c.service.session.schedule.now.add by_ } rfl
          actor
        exact moved
    | serve => cases nobody
    | arrive target => cases nobody
    | proceed index first =>
      have first_ : index = 0 := of_decide_eq_true own
      subst first_
      cases nobody
    | _ => cases own

/-- A service that has no turn has nothing to do. -/
theorem Serves.quiet (h : Serves e lossless stage chunks v) (waits : v.step? = none) :
    v.arrived = [] ∧ v.inbox = [] := by
  rcases Service.waits_of_step waits with stopped | ⟨_, arrived, inbox, _⟩
  · cases h.running.symm.trans stopped
  · exact ⟨arrived, inbox⟩

theorem quiet_of_not_canAct (h : Serves e lossless stage chunks c.service)
    (service : ¬ c.CanAct .service) : c.service.arrived = [] ∧ c.service.inbox = [] := by
  refine h.quiet ?_
  cases step : c.service.step? with
  | none => rfl
  | some w => exact absurd ⟨.serve, rfl, by rw [Crew.turn?, step]; rfl⟩ service

theorem putOff_of_not_canAct (h : Serves e lossless stage chunks c.service)
    (service : ¬ c.CanAct .service) (clock : ¬ c.CanAct .clock) : c.service.putOff = [] := by
  rw [Service.putOff, (quiet_of_not_canAct h service).1, Schedule.actions]
  cases pending : c.service.session.schedule.pending with
  | nil => rfl
  | cons t rest =>
    have due : t.due ≤ t.due := Nat.le_refl _
    exact absurd ⟨.arrive t.due, rfl,
      by simp [Crew.turn?, Service.arrive?, Schedule.pop?, pending, due]⟩ clock

/-- An invoker has something to do until it waits, and once the build has a result. -/
theorem isSome_step? {environment : Environment} {inbox : List (Ticket × Command)}
    {first : OutputKind} (h : Serves e lossless stage chunks v) (taken : stage ≠ .asked)
    (duty : Duty e environment phase inbox chunks)
    (told : ∀ id ended, phase = .waiting id ended → stage.result?.isSome = true) :
    ((e.invoker e.listener phase).step? first v).isSome = true := by
  have waiting (known : stage.result?.isSome = true) :
      ((e.invoker e.listener (.waiting e.id (e.toolEnd environment))).step? first v).isSome =
        true := by
    obtain ⟨cursor, found⟩ := takeResult?_eq h environment
      (i := e.invoker e.listener (.waiting e.id (e.toolEnd environment))) rfl
    refine (congrArg Option.isSome found).trans ?_
    rw [Option.isSome_map]
    exact known
  cases duty with
  | asking =>
    rw [step?_asking h taken]
    rfl
  | running _ _ _ _ _ _ => rfl
  | reporting _ => rfl
  | sent _ => exact waiting (told _ _ rfl)
  | heard _ => exact waiting (told _ _ rfl)

/-- As long as the errand is not over, someone can act. -/
theorem exists_canAct (h : At e lossless stage phase chunks c)
    (goesOn : ∀ outcome, phase ≠ .over outcome) : ∃ a, c.CanAct a := by
  by_cases service : c.CanAct .service
  · exact ⟨_, service⟩
  by_cases clock : c.CanAct .clock
  · exact ⟨_, clock⟩
  have nothing := putOff_of_not_canAct h.serves service clock
  obtain ⟨_, empty⟩ := quiet_of_not_canAct h.serves service
  obtain ⟨serves, ⟨listener, invokers, listening⟩, attends⟩ := h
  cases listening goesOn
  have can (some_ : ((e.invoker e.listener phase).step? .normal c.service).isSome = true) :
      ∃ a, c.CanAct a := by
    refine ⟨.invoker, .proceed 0 .normal, rfl, ?_⟩
    rw [Crew.turn?, Crew.proceed?, invokers, List.getElem?_cons_zero, Option.bind_some,
      Option.isSome_map]
    exact some_
  rw [empty] at attends
  cases attends with
  | building duty pending =>
    exact can (isSome_step? serves (by simp) duty fun id ended waits =>
      absurd rfl (pending id ended waits))
  | reported _ =>
    have due := serves.due _ rfl
    rw [nothing] at due
    cases due
  | expired duty _ => exact can (isSome_step? serves (by simp) duty fun _ _ _ => rfl)
  | finished written => exact can (isSome_step? serves (by simp) (.heard written) fun _ _ _ => rfl)
  | failed _ _ => exact absurd rfl (goesOn _)
  | ended => exact absurd rfl (goesOn _)

/-! ## Runs without an end -/

/-- The first turns of a run without an end. -/
def firstTurns (turns : Nat → Turn) (n : Nat) : List Turn :=
  (List.range n).map turns

theorem firstTurns_succ (turns : Nat → Turn) (n : Nat) :
    firstTurns turns (n + 1) = firstTurns turns n ++ [turns n] := by
  rw [firstTurns, List.range_succ, List.map_append, List.map_singleton]
  rfl

theorem isOwn_firstTurns {turns : Nat → Turn} (own : ∀ n, (turns n).isOwn = true) (n : Nat) :
    ∀ t ∈ firstTurns turns n, t.isOwn = true := by
  intro t mem
  obtain ⟨m, _, rfl⟩ := List.mem_map.mp mem
  exact own m

/-- The crew after the first turns of a run without an end. -/
def course (e : Errand) (turns : Nat → Turn) (n : Nat) : Crew :=
  e.after (firstTurns turns n)

theorem course_succ (e : Errand) (turns : Nat → Turn) (n : Nat) :
    e.course turns (n + 1) = (e.course turns n).turn (turns n) := by
  rw [course, firstTurns_succ, Errand.after, Crew.run_concat]
  rfl

/-- Whoever can act from some time on, acts at some time after that. -/
def Fair (e : Errand) (turns : Nat → Turn) : Prop :=
  ∀ a n, (∀ m, n ≤ m → (e.course turns m).CanAct a) →
    ∃ m, n ≤ m ∧ (turns m).actor? = some a ∧ (e.course turns m).Acts (turns m)

theorem at_course (e : Errand) {turns : Nat → Turn} (own : ∀ n, (turns n).isOwn = true) (n : Nat) :
    ∃ stage phase chunks,
      At e (e.KeepsUp (firstTurns turns n)) stage phase chunks (e.course turns n) := by
  obtain ⟨stage, phase, chunks, there, _⟩ := e.at_run (isOwn_firstTurns own n)
  exact ⟨stage, phase, chunks, there⟩

/-- If someone acts later, then there is less to do after the first such turn. -/
theorem exists_less {turns : Nat → Turn} (own : ∀ n, (turns n).isOwn = true) (n k : Nat)
    (acts : (e.course turns (n + k)).Acts (turns (n + k))) :
    ∃ m, Crew.Less (e.course turns m).debt (e.course turns n).debt := by
  have first {n : Nat} (now : (e.course turns n).Acts (turns n)) :
      ∃ m, Crew.Less (e.course turns m).debt (e.course turns n).debt := by
    obtain ⟨_, _, _, there⟩ := e.at_course own n
    refine ⟨n + 1, ?_⟩
    rw [course_succ]
    exact less_of_acts there now
  induction k generalizing n with
  | zero => exact first acts
  | succ k ih =>
    by_cases now : (e.course turns n).Acts (turns n)
    · exact first now
    · rw [Nat.add_comm k 1, ← Nat.add_assoc] at acts
      obtain ⟨m, less⟩ := ih (n + 1) acts
      rw [course_succ, (canAct_of_idle (own n) now).1] at less
      exact ⟨m, less⟩

/-- Who can act, can do so as long as nobody acts. -/
theorem canAct_of_waiting {turns : Nat → Turn} (own : ∀ n, (turns n).isOwn = true) {n : Nat}
    {a : Actor} (can : (e.course turns n).CanAct a)
    (idle : ∀ m, n ≤ m → ¬ (e.course turns m).Acts (turns m)) {m : Nat} (later : n ≤ m) :
    (e.course turns m).CanAct a := by
  induction later with
  | refl => exact can
  | @step m later ih =>
    rw [course_succ]
    exact (canAct_of_idle (own m) (idle m later)).2 a ih

/-- The invoker comes back from every run in which nobody is kept from acting for ever. -/
theorem exists_outcome {turns : Nat → Turn} (own : ∀ n, (turns n).isOwn = true)
    (fair : e.Fair turns) : ∃ n, (e.course turns n).outcome? ≠ none := by
  have comes (d : (Nat × Nat) × Nat × Nat) (n : Nat) (debt : (e.course turns n).debt = d) :
      ∃ n, (e.course turns n).outcome? ≠ none := by
    induction d using Crew.less_wellFounded.induction generalizing n with
    | _ d ih =>
      obtain ⟨stage, phase, chunks, there⟩ := e.at_course own n
      by_cases ended : ∃ outcome, phase = .over outcome
      · obtain ⟨outcome, rfl⟩ := ended
        refine ⟨n, ?_⟩
        rw [there.outcome?]
        exact Option.some_ne_none _
      · obtain ⟨a, can⟩ := exists_canAct there fun outcome same => ended ⟨outcome, same⟩
        -- Were nobody to act any more, whoever can act now could do so for ever.
        have acts : ∃ m, n ≤ m ∧ (e.course turns m).Acts (turns m) := by
          by_contra none_
          have idle (m : Nat) (later : n ≤ m) : ¬ (e.course turns m).Acts (turns m) :=
            fun acts => none_ ⟨m, later, acts⟩
          obtain ⟨m, later, _, acts⟩ := fair a n fun m => canAct_of_waiting own can idle
          exact idle m later acts
        obtain ⟨m, later, acts⟩ := acts
        obtain ⟨k, rfl⟩ := Nat.exists_eq_add_of_le later
        obtain ⟨m, less⟩ := exists_less own n k acts
        rw [debt] at less
        exact ih _ less m rfl
  exact comes _ 0 rfl

end Errand

end BuildSupervisor
