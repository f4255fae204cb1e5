import BuildSupervisor.Proofs.Crew.Scope
import BuildSupervisor.Proofs.Service.Waiting
/-!
# The run in which everything happens as soon as it can

`Service.runBuild` makes the service rest before every turn of the invoker, and lets time go by when
nothing else is left.  `Crew.leads_runBuild` says that this is one of the runs of a crew: there are
turns of the service, of the clock and of that invoker that lead to the same service, and to the
same outcome.  What such a run comes through can be told from what each of its turns keeps.
-/

namespace BuildSupervisor

/-- Whether the turn is one of the service, of the clock or of the invoker of that index. -/
def Turn.isOf (index : Nat) : Turn → Bool
  | .serve => true
  | .arrive _ => true
  | .elapse _ => true
  | .proceed other _ => other = index
  | _ => false

namespace Crew

variable {P Q : Crew → Prop} {index : Nat} {c d e : Crew} {v w : Service} {target now : Duration}

theorem Throughout.append {first second : List Turn} (h : Throughout P c first)
    (h' : Throughout P (c.run first) second) : Throughout P c (first ++ second) := by
  intro before after place
  rcases List.append_eq_append_iff.mp place with ⟨more, rfl, there⟩ | ⟨more, there, rfl⟩
  · rw [run_append]
    exact h' more after there
  · exact h before more there

/-- Turns of the service, of the clock and of one invoker lead from one crew to the other, through
    crews of which `P` holds. -/
def Leads (P : Crew → Prop) (index : Nat) (c d : Crew) : Prop :=
  ∃ turns : List Turn, (∀ t ∈ turns, t.isOf index = true) ∧ Throughout P c turns ∧ c.run turns = d

namespace Leads

theorem refl (holds : P c) : Leads P index c c := by
  refine ⟨[], nofun, ?_, rfl⟩
  intro before after place
  rw [(List.append_eq_nil_iff.mp place.symm).1]
  exact holds

theorem trans (h : Leads P index c d) (h' : Leads P index d e) : Leads P index c e := by
  obtain ⟨first, own, through, rfl⟩ := h
  obtain ⟨second, own', through', rfl⟩ := h'
  refine ⟨first ++ second, ?_, through.append through', run_append c first second⟩
  intro t mem
  exact (List.mem_append.mp mem).elim (own t) (own' t)

theorem turn {t : Turn} (own : t.isOf index = true) (holds : P c) (next : P (c.turn t)) :
    Leads P index c (c.turn t) := by
  refine ⟨[t], fun other mem => List.mem_singleton.mp mem ▸ own, ?_, rfl⟩
  intro before after place
  rcases List.singleton_eq_append_iff.mp place with ⟨rfl, _⟩ | ⟨rfl, _⟩
  · exact holds
  · exact next

theorem holds (h : Leads P index c d) : P d := by
  obtain ⟨turns, _, through, rfl⟩ := h
  exact through turns [] (List.append_nil turns).symm

theorem mono (h : Leads P index c d) (weaker : ∀ d, P d → Q d) : Leads Q index c d := by
  obtain ⟨turns, own, through, there⟩ := h
  exact ⟨turns, own, fun before after place => weaker _ (through before after place), there⟩

end Leads

/-- `P` is kept where the service rests before every turn of the invoker, and the clock goes no
    further than `target`. -/
structure Endures (P : Crew → Prop) (index : Nat) (target : Duration) : Prop where
  serve : ∀ c, P c → P (c.turn .serve)
  arrive : ∀ c, P c → P (c.turn (.arrive target))
  clock : ∀ c, P c → P { c with service := c.service.clockAt target }
  proceed : ∀ c, P c → c.service.step? = none → P (c.turn (.proceed index .normal))

theorem endures_true (index : Nat) (target : Duration) : Endures (fun _ => True) index target :=
  ⟨fun _ _ => trivial, fun _ _ => trivial, fun _ _ => trivial, fun _ _ _ => trivial⟩

/-! ## The service and the clock -/

theorem leads_settle (endures : Endures P index target) (c : Crew) (v : Service)
    (holds : P { c with service := v }) :
    Leads P index { c with service := v } { c with service := v.settle } := by
  fun_induction Service.settle v with
  | case1 => exact .refl holds
  | case2 v next step ih =>
    have served : ({ c with service := v } : Crew).turn .serve = { c with service := next } :=
      turn_serve step
    have kept := endures.serve _ holds
    have first : Leads P index { c with service := v } _ := .turn (t := .serve) rfl holds kept
    rw [served] at kept first
    exact first.trans (ih kept)

theorem leads_arriveUntil {β : Type u} {found : Service → Option β}
    (endures : Endures P index target) (c : Crew) {n : Nat} (v : Service)
    (holds : P { c with service := v }) :
    Leads P index { c with service := v }
      { c with service := (Service.arriveUntil found target n v).2 } := by
  fun_induction Service.arriveUntil found target n v with
  | case1 => exact .refl holds
  | case2 => exact .refl holds
  | case3 => exact .refl holds
  | case4 n v _ w arrives ih =>
    have arrived : ({ c with service := v } : Crew).turn (.arrive target) =
        { c with service := w } := by
      simp only [Crew.turn, turn?, arrives, Option.map_some, Option.getD_some]
    have kept := endures.arrive _ holds
    have first : Leads P index { c with service := v } _ :=
      .turn (t := .arrive target) rfl holds kept
    rw [arrived] at kept first
    have settles := leads_settle endures c w kept
    exact (first.trans settles).trans (ih settles.holds)

/-- The clock may move to a time up to which nothing is left to do. -/
theorem exists_elapse (c : Crew) (idles : v.Idles target) :
    ∃ by_, ({ c with service := v } : Crew).turn (.elapse by_) =
      { c with service := v.clockAt target } := by
  have early : v.session.schedule.now.nanos ≤ target.nanos := idles.now
  have sum : v.session.schedule.now.add
      (.ofNanos (target.nanos - v.session.schedule.now.nanos)) = target := by
    have bounded := target.bounded
    apply Duration.ext
    simp only [Duration.add, Duration.ofNanos]
    omega
  refine ⟨.ofNanos (target.nanos - v.session.schedule.now.nanos), ?_⟩
  simp only [Crew.turn, turn?, elapse?, sum, idles.due, Option.getD_some]
  rfl

theorem leads_wait {β : Type u} {found : Service → Option β} (endures : Endures P index target)
    (c : Crew) (holds : P { c with service := v }) (early : v.session.schedule.now ≤ target) :
    Leads P index { c with service := v } { c with service := (v.wait found target).2 } := by
  have settles := leads_settle endures c v holds
  have arrives (n : Nat) : Leads P index { c with service := v }
      { c with service := (Service.arriveUntil found target n v.settle).2 } :=
    settles.trans (leads_arriveUntil endures c v.settle settles.holds)
  have waited := v.wait_cases found target
  generalize v.wait found target = answer at waited
  cases waited with
  | atOnce _ => exact .refl holds
  | @later n b w there =>
    have arrives := arrives n
    rw [there] at arrives
    exact arrives
  | @nothing w there =>
    have arrives := arrives v.settle.session.schedule.pending.length
    obtain ⟨idles, _⟩ := Service.idles_arriveUntil v.step?_settle
      (by rw [v.now_settle]; exact early) (Nat.le_refl _) (congrArg Prod.fst there)
    rw [there] at arrives idles
    obtain ⟨by_, moved⟩ := exists_elapse c idles
    have kept := endures.clock _ arrives.holds
    have last : Leads P index { c with service := w } _ :=
      .turn (t := .elapse by_) rfl arrives.holds (moved ▸ kept)
    rw [moved] at last
    exact arrives.trans last

theorem leads_rest (endures : Endures P index now) (c : Crew) (holds : P { c with service := v })
    (clock : v.session.schedule.now = now) :
    Leads P index { c with service := v } { c with service := v.rest } := by
  subst clock
  exact leads_wait endures c holds (Nat.le_refl _)

/-! ## The invoker -/

/-- What an invoker does to the service: nothing, or it writes a chunk or sends a command, and does
    not come back then. -/
inductive Handled (v : Service) : Invoker → Service → Prop where
  | left {j : Invoker} : Handled v j v
  | wrote {j : Invoker} (c : Chunk) : (∀ outcome, j.phase ≠ .over outcome) →
      Handled v j { v with session := (v.session.write c).2 }
  | sent {j : Invoker} (m : Ticket × Command) : (∀ outcome, j.phase ≠ .over outcome) →
      Handled v j { v with inbox := v.inbox ++ [m] }

theorem handled_step {i j : Invoker} {first : OutputKind}
    (step : i.step? first v = some (j, w)) : Handled v j w := by
  obtain ⟨command, launch, ticket, listener, phase⟩ := i
  cases phase with
  | asking =>
    have step : Invoker.takeReply? _ v = some (j, w) := step
    unfold Invoker.takeReply? at step
    split at step
    · have step := Option.some.inj step
      unfold Invoker.startTool at step
      split at step <;> cases step
      · exact .left
      · exact .wrote _ nofun
    · cases step
      exact .left
    · cases step
      exact .left
    all_goals
      split at step <;> cases step
      exact .left
  | running id tool =>
    have step : Invoker.readTool _ first id tool v = (j, w) := Option.some.inj step
    unfold Invoker.readTool at step
    split at step <;> cases step
    · exact .wrote _ nofun
    · exact .left
  | reporting id ended =>
    have step : Invoker.report _ id ended v = (j, w) := Option.some.inj step
    unfold Invoker.report Service.send? at step
    split at step
    · rename_i sent
      split at sent <;> cases sent
      cases step
      exact .sent _ nofun
    · cases step
      exact .left
  | waiting id ended =>
    have step : Invoker.takeResult? _ id ended v = some (j, w) := step
    unfold Invoker.takeResult? at step
    split at step
    · cases step
    · obtain ⟨_, _, same⟩ := Option.map_eq_some_iff.mp step
      cases same
      exact .left
    · cases step
      exact .left
  | _ => cases step

/-- An invoker puts nothing off, and what it does takes no time. -/
theorem Handled.schedule {j : Invoker} (h : Handled v j w) :
    w.session.schedule = v.session.schedule := by
  cases h <;> rfl

/-- An invoker that comes back leaves the service as it is. -/
theorem Handled.eq_of_over {j : Invoker} (h : Handled v j w) {outcome : Except InvokeError Outcome}
    (back : j.phase = .over outcome) : w = v := by
  cases h with
  | left => rfl
  | wrote _ goesOn => exact absurd back (goesOn outcome)
  | sent _ goesOn => exact absurd back (goesOn outcome)

/-- Where an invoker does not come back, it has no turn while the service rests. -/
theorem proceed_stuck (i : Invoker) (v : Service) :
    (i.proceed v).1.step? .normal (i.proceed v).2 = none ∧ (i.proceed v).2.step? = none ∧
      (i.proceed v).2.session.schedule.now = v.session.schedule.now := by
  fun_induction Invoker.proceed i v with
  | case1 i v stuck => exact ⟨stuck, v.rest_idles⟩
  | case2 i v j w step ih =>
    refine ⟨ih.1, ih.2.1, ih.2.2.trans ?_⟩
    rw [(handled_step step).schedule, v.rest_idles.2]

theorem leads_proceed (endures : Endures P index now) (i : Invoker) (v : Service) (c : Crew)
    (service : c.service = v) (clock : v.session.schedule.now = now)
    (there : c.invokers[index]? = some i) (holds : P c) :
    ∃ d, Leads P index c d ∧ d.service = (i.proceed v).2 ∧
      d.invokers = c.invokers.set index (i.proceed v).1 := by
  fun_induction Invoker.proceed i v generalizing c with
  | case1 i v _ =>
    subst service
    refine ⟨_, leads_rest endures c holds clock, rfl, ?_⟩
    obtain ⟨within, rfl⟩ := List.getElem?_eq_some_iff.mp there
    exact (List.set_getElem_self within).symm
  | case2 i v j w step ih =>
    subst service
    have rests : Leads P index c { c with service := c.service.rest } :=
      leads_rest endures c holds clock
    have turned := turn_proceed (c := { c with service := c.service.rest }) index .normal there step
    have kept := endures.proceed _ rests.holds c.service.rest_idles.1
    have goes : Leads P index { c with service := c.service.rest } _ :=
      .turn (t := .proceed index .normal) (decide_eq_true rfl) rests.holds kept
    rw [turned] at kept goes
    have now' : w.session.schedule.now = now := by
      rw [(handled_step step).schedule, c.service.rest_idles.2, clock]
    have within : index < c.invokers.length := (List.getElem?_eq_some_iff.mp there).1
    obtain ⟨d, leads, same, invokers⟩ :=
      ih _ rfl now' (List.getElem?_set_self within) kept
    refine ⟨d, (rests.trans goes).trans leads, same, ?_⟩
    rw [invokers]
    exact List.set_set ..

/-- What has come of the invoker of an index. -/
def outcomeOf? (c : Crew) (index : Nat) : Option (Except InvokeError Outcome) :=
  match c.invokers[index]?.map Invoker.phase with
  | some (.over outcome) => some outcome
  | _ => none

/-- What the next turn of an invoker brings is there after that turn. -/
theorem nextOutcome?_eq_some {i : Invoker} {outcome : Except InvokeError Outcome}
    (h : i.nextOutcome? v = some outcome) :
    ∃ j, i.step? .normal v = some (j, v) ∧ j.phase = .over outcome := by
  unfold Invoker.nextOutcome? at h
  split at h
  · rename_i step
    cases h
    cases (handled_step step).eq_of_over rfl
    exact ⟨_, step, rfl⟩
  · cases h

/-- Nothing will ever happen any more: all that was put off has arrived and is done, and the next
    turn of the invoker brings no outcome. -/
structure Stuck (c : Crew) (i : Invoker) : Prop where
  waits : c.service.step? = none
  pending : c.service.session.schedule.pending = []
  silent : i.nextOutcome? c.service = none

theorem le_max (d : Duration) : d ≤ Duration.max := by
  have bounded := d.bounded
  change d.nanos ≤ min maxNanos maxNanos
  omega

theorem stuck_of_idles {i : Invoker} (idles : v.Idles Duration.max)
    (silent : i.nextOutcome? v = none) :
    Stuck { c with service := v.clockAt Duration.max } i := by
  refine ⟨Service.step?_clockAt idles.waits _, ?_, (i.nextOutcome?_withSchedule v _).trans silent⟩
  have due := idles.due
  unfold Schedule.pop? at due
  change v.session.schedule.pending = []
  split at due
  · assumption
  · rename_i t rest _
    rw [if_pos (le_max t.due)] at due
    cases due

/-- An invoker that has come to wait goes on waiting until its outcome is there, or nothing happens
    any more. -/
theorem leads_outcome (endures : Endures P index Duration.max) {i : Invoker}
    (there : c.invokers[index]? = some i) (waits : c.service.step? = none) (holds : P c)
    (goesOn : ∀ outcome, i.phase ≠ .over outcome) :
    ∃ d, Leads P index c d ∧ d.service = (c.service.wait i.nextOutcome? Duration.max).2 ∧
      d.outcomeOf? index = (c.service.wait i.nextOutcome? Duration.max).1 ∧
      (d.outcomeOf? index = none → d.invokers = c.invokers ∧ Stuck d i) := by
  have early : c.service.session.schedule.now ≤ Duration.max := le_max _
  have leads : Leads P index c
      { c with service := (c.service.wait i.nextOutcome? Duration.max).2 } :=
    leads_wait endures c holds early
  cases found : (c.service.wait i.nextOutcome? Duration.max).1 with
  | none =>
    refine ⟨_, leads, rfl, ?_, fun _ => ⟨rfl, ?_⟩⟩
    · unfold outcomeOf?
      rw [there]
      split
      · rename_i outcome phase
        exact absurd (Option.some.inj phase) (goesOn outcome)
      · rfl
    · obtain ⟨w, moved, idles, silent⟩ := Service.idles_wait early found
      rw [moved]
      exact stuck_of_idles idles silent
  | some outcome =>
    obtain ⟨j, step, back⟩ := nextOutcome?_eq_some (Service.found_wait found)
    have idle : (c.service.wait i.nextOutcome? Duration.max).2.step? = none :=
      Service.step?_wait waits
    have kept := endures.proceed _ leads.holds idle
    generalize (c.service.wait i.nextOutcome? Duration.max).2 = w at step leads kept
    have goes : Leads P index { c with service := w } _ :=
      .turn (t := .proceed index .normal) (decide_eq_true rfl) leads.holds kept
    rw [turn_proceed (c := { c with service := w }) index .normal there step] at goes
    have within : index < c.invokers.length := (List.getElem?_eq_some_iff.mp there).1
    have came : ({ c with service := w, invokers := c.invokers.set index j } : Crew).outcomeOf?
        index = some outcome := by
      unfold outcomeOf?
      dsimp only
      rw [List.getElem?_set_self within, Option.map_some, back]
    refine ⟨_, leads.trans goes, rfl, came, ?_⟩
    intro none_
    cases came.symm.trans none_

/-- The invoker and the service when someone who listens has asked for a build. -/
def asked (c : Crew) (request : BuildRequest) (command : ToolCommand) (launch : Launch)
    (listener : Cursor) (events : EventBus) : Invoker × Service :=
  Invoker.ask { c.service with session := { c.service.session with events := events } } c.nextTicket
    request command launch listener

section

variable {listener : Cursor} {events : EventBus}
  (listens : c.service.session.events.listen? = some (listener, events)) (request : BuildRequest)
  (command : ToolCommand) (launch : Launch)

include listens

theorem turn_join_eq :
    c.turn (.join request command launch) =
      { c.send (c.asked request command launch listener events).2 with
        invokers := c.invokers ++ [(c.asked request command launch listener events).1]
        nextTicket := c.nextTicket + 1 } := by
  unfold Crew.turn turn? join?
  rw [listens]
  rfl

theorem runBuild_eq :
    c.service.runBuild c.nextTicket request command launch =
      let (i, v) := c.asked request command launch listener events
      match (i.proceed v).1.phase with
      | .over outcome => (some outcome, (i.proceed v).2)
      | _ => (i.proceed v).2.wait (i.proceed v).1.nextOutcome? Duration.max := by
  unfold Service.runBuild
  rw [listens]
  rfl

end

theorem schedule_asked (c : Crew) (request : BuildRequest) (command : ToolCommand) (launch : Launch)
    (listener : Cursor) (events : EventBus) :
    (c.asked request command launch listener events).2.session.schedule =
      c.service.session.schedule := by
  unfold asked Invoker.ask Service.send?
  cases c.service.stopped <;> rfl

/-- Someone asks for a build, and it is run as soon as it can be: turns of the service, of the clock
    and of that invoker lead to where it has nothing to do but to wait for the result, and on to its
    outcome. -/
theorem leads_runBuild {now : Duration} (early : Endures P c.invokers.length now)
    (late : Endures Q c.invokers.length Duration.max)
    (turns : ∀ d, P d → d.service.step? = none → d.proceed? c.invokers.length .normal = none → Q d)
    (clock : c.service.session.schedule.now = now)
    (listens : c.service.session.events.channel.closed = false) (request : BuildRequest)
    (command : ToolCommand) (launch : Launch) (holds : P (c.turn (.join request command launch))) :
    ∃ d e, Leads P c.invokers.length (c.turn (.join request command launch)) d ∧
      Leads Q c.invokers.length d e ∧
      e.service = (c.service.runBuild c.nextTicket request command launch).2 ∧
      e.outcomeOf? c.invokers.length =
        (c.service.runBuild c.nextTicket request command launch).1 ∧
      (e.outcomeOf? c.invokers.length = none →
        ∃ i, e.invokers[c.invokers.length]? = some i ∧ Stuck e i) := by
  obtain ⟨⟨listener, events⟩, listens⟩ : ∃ a, c.service.session.events.listen? = some a := by
    rw [EventBus.listen?, Channel.join?, listens]
    exact ⟨_, rfl⟩
  have now' := (congrArg Schedule.now (schedule_asked c request command launch listener
    events)).trans clock
  rw [turn_join_eq listens] at holds ⊢
  rw [runBuild_eq listens]
  generalize c.asked request command launch listener events = a at now' holds ⊢
  obtain ⟨i, v⟩ := a
  dsimp only at now' holds ⊢
  obtain ⟨d, leads, service, invokers⟩ :=
    leads_proceed early i v _ rfl now' List.getElem?_concat_length holds
  obtain ⟨stuck, idle, _⟩ := proceed_stuck i v
  have there : d.invokers[c.invokers.length]? = some (i.proceed v).1 := by
    rw [invokers]
    exact List.getElem?_set_self (by simp)
  have waits : d.proceed? c.invokers.length .normal = none := by
    rw [proceed?, there, Option.bind_some, service, stuck]
    rfl
  rw [← service] at idle ⊢
  have kept := turns d leads.holds idle waits
  generalize (i.proceed v).1 = j at *
  cases phase : j.phase with
  | asking | running | reporting | waiting =>
    have goesOn (outcome) : j.phase ≠ .over outcome := by
      intro back
      cases phase.symm.trans back
    obtain ⟨e, later, same, outcome, nothing⟩ := leads_outcome late there idle kept goesOn
    refine ⟨d, e, leads, later, same, outcome, fun none_ => ⟨j, ?_, (nothing none_).2⟩⟩
    rw [(nothing none_).1]
    exact there
  | _ outcome =>
    have back : d.outcomeOf? c.invokers.length = some outcome := by
      unfold outcomeOf?
      rw [there, Option.map_some, phase]
    refine ⟨d, d, leads, .refl kept, rfl, back, ?_⟩
    intro none_
    cases back.symm.trans none_

/-- The run of a build that `Service.runBuild` makes is a run of the crew in which the build is
    asked for. -/
theorem exists_run_eq_runBuild (c : Crew)
    (listens : c.service.session.events.channel.closed = false) (request : BuildRequest)
    (command : ToolCommand) (launch : Launch) :
    ∃ turns : List Turn, (∀ t ∈ turns, t.isOf c.invokers.length = true) ∧
      (c.run (.join request command launch :: turns)).service =
        (c.service.runBuild c.nextTicket request command launch).2 ∧
      (c.run (.join request command launch :: turns)).outcomeOf? c.invokers.length =
        (c.service.runBuild c.nextTicket request command launch).1 := by
  obtain ⟨d, e, first, second, service, outcome, _⟩ :=
    leads_runBuild (endures_true _ _) (endures_true _ _) (fun _ _ _ _ => trivial) rfl listens
      request command launch trivial
  obtain ⟨turns, own, _, rfl⟩ := first.trans second
  exact ⟨turns, own, service, outcome⟩

end Crew

end BuildSupervisor
