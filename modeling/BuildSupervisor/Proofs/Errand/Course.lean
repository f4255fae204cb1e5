import BuildSupervisor.Proofs.Crew.Credit
import BuildSupervisor.Proofs.Errand.Serving
import BuildSupervisor.Proofs.Tool.Reading
/-!
# The course of an errand

Every turn keeps `Errand.At`.  `Errand.at_turn` is put together from what each kind of turn does:
`passes_step` for the service and `proceeds_step` for the invoker.
-/

namespace BuildSupervisor

namespace Errand

variable {e : Errand} {lossless : Prop} {stage : Stage} {phase : InvokerPhase}
  {chunks : List Chunk} {c : Crew} {v w : Service}

/-! ## The invoker -/

/-- The reply that the build has been accepted. -/
theorem Serves.reply? (h : Serves e lossless stage chunks v) (taken : stage ≠ .asked) :
    v.reply? 0 = some (.started (.ok (.accepted e.id))) := by
  rw [Service.reply?, h.replies]
  cases stage <;> first | exact absurd rfl taken | rfl

/-- Once the build has been accepted, the invoker launches the tool. -/
theorem step?_asking (h : Serves e lossless stage chunks v) (taken : stage ≠ .asked)
    (listener : Cursor) (first : OutputKind) :
    (e.invoker listener .asking).step? first v =
      some ((e.invoker listener .asking).startTool e.id v) := by
  rw [invoker, Invoker.step?, Invoker.takeReply?, h.reply? taken]

/-- What is written to the console by the invoker. -/
theorem Serves.write (h : Serves e lossless stage chunks v) (c : Chunk) :
    Serves e lossless stage (chunks ++ [c]) { v with session := (v.session.write c).2 } :=
  h.of_session (h.tends.write c) rfl

/-- The invoker comes to another phase of its duty, at the same stage. -/
structure Goes (e : Errand) (lossless : Prop) (stage : Stage) (listener : Cursor)
    (environment : Environment) (phase : InvokerPhase) (chunks : List Chunk) (j : Invoker)
    (w : Service) : Prop where
  invoker : j = e.invoker listener phase
  serves : Serves e lossless stage chunks w
  duty : Duty e environment phase w.inbox chunks
  pending : ∀ id ended, phase = .waiting id ended → w.inbox ≠ []

theorem textsOf_concat (chunks : List Chunk) (stream : OutputKind) (text : String) :
    textsOf (chunks ++ [⟨stream, text⟩]) =
      fun other => textsOf chunks other ++ if stream = other then [text] else [] := by
  funext other
  rw [textsOf_append]
  cases stream <;> cases other <;> rfl

/-- The tool is launched. -/
theorem goes_startTool {listener : Cursor} (h : Serves e lossless stage [] v)
    (empty : v.inbox = []) {i j : Invoker} (who : i = e.invoker listener .asking)
    (step : i.startTool e.id v = (j, w)) :
    ∃ phase chunks, Goes e lossless stage listener (stage.environment e) phase chunks j w := by
  subst who
  unfold Invoker.startTool at step
  dsimp only [invoker] at step
  rw [h.tends.environment] at step
  split at step
  · rename_i run launched
    cases step
    refine ⟨_, [], rfl, h, ?_, nofun⟩
    rw [empty]
    exact .running [] launched (Pipe.lines_eq run.stdout).symm
      (Pipe.lines_eq run.stderr).symm rfl rfl rfl
  · rename_i failure launched
    cases step
    have ended : e.toolEnd (stage.environment e) = ToolEnd.notStarted := by
      rw [toolEnd, launched]
    refine ⟨_, _, rfl, h.write _, ?_, nofun⟩
    rw [← ended]
    refine empty ▸ .reporting ?_
    funext stream
    cases stream <;> simp [textsOf, texts, launched]

/-- A line of the tool is written, or its end is known. -/
theorem goes_readTool {environment : Environment} {listener : Cursor} {first : OutputKind}
    {id : BuildId} {tool : RunningTool} {inbox : List (Ticket × Command)}
    (h : Serves e lossless stage chunks v) (there : v.inbox = inbox)
    (duty : Duty e environment (.running id tool) inbox chunks) {i j : Invoker}
    (who : i = e.invoker listener (.running id tool))
    (step : i.readTool first id tool v = (j, w)) :
    ∃ phase chunks, Goes e lossless stage listener environment phase chunks j w := by
  subst who
  unfold Invoker.readTool at step
  cases duty with
  | @running run _ _ errors launched stdout stderr status said failed =>
    split at step
    · rename_i c next read
      cases step
      rcases RunningTool.read?_cases read with read | read
      · obtain ⟨line, rest, first, rfl, rfl⟩ := RunningTool.readStdout?_eq_some read
        refine ⟨_, _, rfl, h.write _,
          there ▸ .running errors launched ?_ stderr status ?_ ?_, nofun⟩
        · rw [stdout, first, List.append_assoc, List.singleton_append]
        · rw [Pipe.chunkOf, textsOf_concat, List.map_append, ← said]
          rfl
        · rw [Pipe.chunkOf, textsOf_concat, ← failed]
          exact List.append_nil _
      · obtain ⟨line, rest, first, rfl, rfl⟩ := RunningTool.readStderr?_eq_some read
        refine ⟨_, _, rfl, h.write _,
          there ▸ .running (errors ++ [line]) launched stdout ?_ status ?_ ?_, nofun⟩
        · rw [stderr, first, List.append_assoc, List.singleton_append]
        · rw [Pipe.chunkOf, textsOf_concat, ← said]
          exact List.append_nil _
        · rw [Pipe.chunkOf, textsOf_concat, List.map_append, ← failed]
          rfl
    · rename_i none_
      cases step
      obtain ⟨empty, empty'⟩ := RunningTool.read?_eq_none none_
      rw [empty, List.append_nil] at stdout
      rw [empty', List.append_nil] at stderr
      have ended : ToolEnd.ofTool tool = e.toolEnd environment := by
        simp only [toolEnd, launched, ToolEnd.ofTool, status, stdout]
      refine ⟨_, chunks, rfl, h, ?_, nofun⟩
      rw [ended]
      refine there ▸ .reporting ?_
      funext stream
      cases stream
      · simp only [texts, launched, stdout, said]
      · simp only [texts, launched, stderr, failed]

/-- The service is told how the tool ended. -/
theorem goes_report {environment : Environment} {listener : Cursor} {id : BuildId}
    {ended : ToolEnd} {inbox : List (Ticket × Command)} (h : Serves e lossless stage chunks v)
    (there : v.inbox = inbox) (duty : Duty e environment (.reporting id ended) inbox chunks)
    {i j : Invoker} (who : i = e.invoker listener (.reporting id ended))
    (step : i.report id ended v = (j, w)) :
    ∃ phase chunks, Goes e lossless stage listener environment phase chunks j w := by
  subst who
  cases duty with
  | reporting written =>
    unfold Invoker.report Service.send? at step
    rw [if_neg (by simp [h.running])] at step
    cases step
    refine ⟨_, chunks, rfl, { h with }, ?_, fun _ _ _ => by simp⟩
    rw [there]
    exact .sent written

/-- Where the service is with the result, as the invoker finds it on the bus. -/
theorem completionOf_eq (h : Serves e lossless stage chunks v) :
    (v.session.events.completionOf e.id e.listener).1 =
      .ok ((stage.told e).find? fun n => n.completes e.id) := by
  have log : v.session.events.channel.sent = e.session.events.log ++ stage.told e := h.tends.log
  have few : (stage.told e).length ≤ 2 := by
    cases stage <;> simp [Stage.told]
  rw [EventBus.completionOf_of_kept h.tends.listening, Channel.unread, log, listener,
    List.drop_left]
  rw [Channel.behind, log, List.length_append]
  have roomy := h.tends.roomy
  dsimp only [listener]
  omega

/-- The invoker finds the result once the build has been given one. -/
theorem takeResult?_eq (h : Serves e lossless stage chunks v) (environment : Environment)
    {i : Invoker} (listener : i.listener = e.listener) :
    ∃ cursor, i.takeResult? e.id (e.toolEnd environment) v =
      stage.result?.map fun result =>
        ({ i with
          listener := cursor
          phase := .over (.ok (.finished (e.reportOf environment result))) }, v) := by
  have found := completionOf_eq h
  unfold Invoker.takeResult?
  rw [listener]
  generalize v.session.events.completionOf e.id _ = answer at found
  obtain ⟨answer, cursor⟩ := answer
  cases found
  refine ⟨cursor, ?_⟩
  cases stage <;>
    simp [Stage.told, Stage.result?, Notification.completes, Invoker.outcomeOf, reportOf]

/-- Until it waits for the result, the invoker goes on with its duty. -/
theorem goes_step {environment : Environment} {listener : Cursor} {first : OutputKind}
    {inbox : List (Ticket × Command)} (h : Serves e lossless stage chunks v)
    (taken : stage ≠ .asked) (there : v.inbox = inbox)
    (duty : Duty e environment phase inbox chunks)
    (busy : ∀ id ended, phase ≠ .waiting id ended) {i j : Invoker}
    (who : i = e.invoker listener phase) (step : i.step? first v = some (j, w)) :
    ∃ environment' phase chunks,
      (environment' = environment ∨ environment' = stage.environment e) ∧
      Goes e lossless stage listener environment' phase chunks j w := by
  cases phase with
  | asking =>
    cases duty
    have step : some (i.startTool e.id v) = some (j, w) := by
      rw [who] at step ⊢
      exact (step?_asking h taken listener first).symm.trans step
    obtain ⟨phase, chunks, goes⟩ := goes_startTool h there who (Option.some.inj step)
    exact ⟨_, phase, chunks, .inr rfl, goes⟩
  | running id tool =>
    have step : i.readTool first id tool v = (j, w) := by
      rw [who] at step ⊢
      exact Option.some.inj step
    obtain ⟨phase, chunks, goes⟩ := goes_readTool h there duty who step
    exact ⟨_, phase, chunks, .inl rfl, goes⟩
  | reporting id ended =>
    have step : i.report id ended v = (j, w) := by
      rw [who] at step ⊢
      exact Option.some.inj step
    obtain ⟨phase, chunks, goes⟩ := goes_report h there duty who step
    exact ⟨_, phase, chunks, .inl rfl, goes⟩
  | waiting id ended => exact absurd rfl (busy id ended)
  | _ => cases duty

/-- The invoker comes to another phase, at the same stage. -/
structure Proceeds (e : Errand) (lossless : Prop) (stage : Stage) (phase : InvokerPhase)
    (chunks : List Chunk) (j : Invoker) (w : Service) : Prop where
  invoker : ∃ listener, j = e.invoker listener phase ∧
    ((∀ outcome, phase ≠ .over outcome) → listener = e.listener)
  serves : Serves e lossless stage chunks w
  attends : Attends e stage phase w.inbox chunks

theorem Goes.proceeds {environment : Environment} {j : Invoker}
    (goes : Goes e lossless stage e.listener environment phase chunks j w)
    (attends : Attends e stage phase w.inbox chunks) : Proceeds e lossless stage phase chunks j w :=
  ⟨⟨_, goes.invoker, fun _ => rfl⟩, goes.serves, attends⟩

/-- An invoker that waits finds the result. -/
theorem proceeds_waiting {environment : Environment} {inbox : List (Ticket × Command)}
    {first : OutputKind} (h : Serves e lossless stage chunks v) {i j : Invoker}
    (who : i = e.invoker e.listener (.waiting e.id (e.toolEnd environment)))
    (step : i.step? first v = some (j, w)) (there : v.inbox = inbox)
    (attends : ∀ result, stage.result? = some result →
      Attends e stage (.over (.ok (.finished (e.reportOf environment result)))) inbox chunks) :
    ∃ phase, Proceeds e lossless stage phase chunks j w := by
  subst who
  obtain ⟨cursor, found⟩ := takeResult?_eq h environment
    (i := e.invoker e.listener _) rfl
  have step := found.symm.trans step
  obtain ⟨result, told, same⟩ := Option.map_eq_some_iff.mp step
  cases same
  exact ⟨_, ⟨cursor, rfl, fun goesOn => absurd rfl (goesOn _)⟩, h, there ▸ attends result told⟩

/-- Who waits, waits for the result of what the tool has done. -/
theorem Duty.of_waiting {environment : Environment} {id : BuildId} {ended : ToolEnd}
    {inbox : List (Ticket × Command)} (duty : Duty e environment (.waiting id ended) inbox chunks) :
    id = e.id ∧ ended = e.toolEnd environment := by
  cases duty <;> exact ⟨rfl, rfl⟩

/-- An invoker that does its duty goes on with it, or finds the result. -/
theorem proceeds_duty {environment : Environment} {inbox : List (Ticket × Command)}
    {first : OutputKind} (h : Serves e lossless stage chunks v) (taken : stage ≠ .asked)
    (there : v.inbox = inbox) (duty : Duty e environment phase inbox chunks) {i j : Invoker}
    (who : i = e.invoker e.listener phase)
    (step : i.step? first v = some (j, w))
    (onward : ∀ environment' phase chunks,
      environment' = environment ∨ environment' = stage.environment e →
      Duty e environment' phase w.inbox chunks →
      (∀ id ended, phase = .waiting id ended → w.inbox ≠ []) →
      Attends e stage phase w.inbox chunks)
    (told : ∀ result, stage.result? = some result →
      Duty e environment (.waiting e.id (e.toolEnd environment)) inbox chunks →
      Attends e stage (.over (.ok (.finished (e.reportOf environment result)))) inbox chunks) :
    ∃ phase chunks, Proceeds e lossless stage phase chunks j w := by
  by_cases waits : ∃ id ended, phase = .waiting id ended
  · obtain ⟨id, ended, rfl⟩ := waits
    obtain ⟨rfl, rfl⟩ := duty.of_waiting
    obtain ⟨phase, proceeds⟩ :=
      proceeds_waiting h who step there fun result known => told result known duty
    exact ⟨phase, chunks, proceeds⟩
  · have busy (id : BuildId) (ended : ToolEnd) : phase ≠ .waiting id ended :=
      fun same => waits ⟨id, ended, same⟩
    obtain ⟨environment', phase, chunks, place, goes⟩ :=
      goes_step h taken there duty busy who step
    exact ⟨phase, chunks, goes.proceeds (onward _ _ _ place goes.duty goes.pending)⟩

/-- A turn of the invoker. -/
theorem proceeds_step {listener : Cursor} {first : OutputKind} {inbox : List (Ticket × Command)}
    (h : Serves e lossless stage chunks v) (there : v.inbox = inbox)
    (attends : Attends e stage phase inbox chunks) {i j : Invoker}
    (who : i = e.invoker listener phase)
    (listening : (∀ outcome, phase ≠ .over outcome) →
      listener = e.listener)
    (step : i.step? first v = some (j, w)) :
    ∃ phase chunks, Proceeds e lossless stage phase chunks j w := by
  by_cases ended : ∃ outcome, phase = .over outcome
  · obtain ⟨outcome, rfl⟩ := ended
    rw [who] at step
    cases step
  rw [listening fun outcome same => ended ⟨outcome, same⟩] at who
  cases attends with
  | asked =>
    have unanswered : v.reply? 0 = none := by
      rw [Service.reply?, h.replies]
      rfl
    rw [who, invoker, Invoker.step?, Invoker.takeReply?, unanswered, h.running] at step
    cases step
  | building duty _ =>
    refine proceeds_duty h (by simp) there duty who step ?_ fun _ known => by cases known
    intro environment phase chunks place duty pending
    have place : environment = e.patched := place.elim (fun same => same) fun same => same
    exact .building (place ▸ duty) pending
  | reported written =>
    obtain ⟨phase, proceeds⟩ := proceeds_waiting h who step there fun _ known => by
      cases known
    exact ⟨phase, chunks, proceeds⟩
  | expired duty place =>
    refine proceeds_duty h (by simp) there duty who step ?_ ?_
    · intro environment phase chunks place' duty _
      refine .expired duty ?_
      rcases place' with rfl | rfl
      · exact place
      · exact .inr rfl
    · intro result known duty
      cases known
      exact .failed duty place
  | finished _ =>
    obtain ⟨phase, proceeds⟩ := proceeds_waiting h who step there fun result known => by
      cases known
      exact .ended
    exact ⟨phase, chunks, proceeds⟩
  | failed _ _ => exact absurd ⟨_, rfl⟩ ended
  | ended => exact absurd ⟨_, rfl⟩ ended

/-! ## Turns -/

theorem at_serve (h : At e lossless stage phase chunks c)
    (upToDate : lossless →
      c.service.session.capture.backlog c.service.session.console ≤
        c.service.session.console.ring) :
    ∃ next, At e lossless next phase chunks (c.turn .serve) ∧
      next.endings e = stage.endings e ++ (c.ending? .serve).toList := by
  cases step : c.service.step? with
  | none =>
    have same : c.turn .serve = c := by
      simp only [Crew.turn, Crew.turn?, step, Option.map_none, Option.getD_none]
    refine ⟨stage, ?_, ?_⟩
    · rw [same]
      exact h
    · rw [Crew.ending?, same, if_pos rfl, Option.toList_none, List.append_nil]
  | some w =>
    obtain ⟨next, serves, attends, endings, _⟩ := passes_step h.serves h.attends upToDate step
    have served : c.turn .serve = { c with service := w } := Crew.turn_serve step
    refine ⟨next, ?_, ?_⟩
    · rw [served]
      exact ⟨serves, h.invoker, attends⟩
    · rw [Crew.ending?, served]
      exact endings

/-- The clock moves, and what is put off stays the same. -/
theorem Serves.of_clock (h : Serves e lossless stage chunks v) {schedule : Schedule Deferred}
    {arrived : List Deferred} (same : arrived ++ schedule.actions = v.putOff) :
    Serves e lossless stage chunks
      { v with session := { v.session with schedule := schedule }, arrived := arrived } := by
  refine ⟨h.running, h.handles, h.located, h.tends.withSchedule schedule, h.replies, ?_, ?_⟩
  · intro task mem
    have mem : task ∈ arrived ++ schedule.actions := mem
    exact h.putOff task (same ▸ mem)
  · intro task last
    have mem : task ∈ arrived ++ schedule.actions := same ▸ h.due task last
    exact mem

theorem at_arrive (h : At e lossless stage phase chunks c) (target : Duration) :
    At e lossless stage phase chunks (c.turn (.arrive target)) := by
  obtain ⟨serves, invoker, attends⟩ := h
  cases popped : c.service.session.schedule.pop? target with
  | none =>
    have same : c.turn (.arrive target) = c := by
      simp only [Crew.turn, Crew.turn?, Service.arrive?, popped, Option.map_none, Option.getD_none]
    rw [same]
    exact ⟨serves, invoker, attends⟩
  | some first =>
    obtain ⟨t, rest⟩ := first
    have moved : c.turn (.arrive target) =
        { c with
          service :=
            { c.service with
              session := { c.service.session with schedule := rest }
              arrived := c.service.arrived ++ [t.job.action] } } := by
      simp only [Crew.turn, Crew.turn?, Service.arrive?, popped, serves.running, Option.map_some,
        Option.getD_some, Bool.false_eq_true, if_false]
    rw [moved]
    refine ⟨serves.of_clock ?_, invoker, attends⟩
    rw [Service.putOff, Schedule.actions_of_pop? popped, List.append_assoc, List.singleton_append]

theorem at_elapse (h : At e lossless stage phase chunks c) (by_ : Duration) :
    At e lossless stage phase chunks (c.turn (.elapse by_)) := by
  obtain ⟨serves, invoker, attends⟩ := h
  rcases c.turn_cases (.elapse by_) with same | moved
  · rw [same]
    exact ⟨serves, invoker, attends⟩
  · simp only [Crew.turn?, Crew.elapse?] at moved
    split at moved
    · cases moved
    · rw [← Option.some.inj moved]
      exact ⟨serves.of_clock (v := c.service) rfl, invoker, attends⟩

theorem at_proceed (h : At e lossless stage phase chunks c) (first : OutputKind) :
    ∃ phase' chunks', At e lossless stage phase' chunks' (c.turn (.proceed 0 first)) := by
  obtain ⟨serves, ⟨listener, invokers, listening⟩, attends⟩ := h
  unfold Crew.turn Crew.turn? Crew.proceed?
  rw [invokers]
  dsimp only [List.getElem?_cons_zero, Option.bind_some]
  cases step : (e.invoker listener phase).step? first c.service with
  | none => exact ⟨phase, chunks, serves, ⟨listener, invokers, listening⟩, attends⟩
  | some next =>
    obtain ⟨j, w⟩ := next
    obtain ⟨phase', chunks', ⟨listener', rfl, listening'⟩, serves', attends'⟩ :=
      proceeds_step serves rfl attends rfl listening step
    exact ⟨phase', chunks', serves', ⟨listener', rfl, listening'⟩, attends'⟩

/-- Every turn of the errand keeps its invariant; the build is ended by the task with which the
    service ends it in the turn. -/
theorem at_turn (h : At e lossless stage phase chunks c) {t : Turn} (own : t.isOwn = true)
    (upToDate : lossless →
      c.service.session.capture.backlog c.service.session.console ≤
        c.service.session.console.ring) :
    ∃ stage' phase' chunks', At e lossless stage' phase' chunks' (c.turn t) ∧
      stage'.endings e = stage.endings e ++ (c.ending? t).toList := by
  have still : stage.endings e = stage.endings e ++ (none : Option Deferred).toList :=
    (List.append_nil _).symm
  cases t with
  | serve =>
    obtain ⟨next, there, endings⟩ := at_serve h upToDate
    exact ⟨next, phase, chunks, there, endings⟩
  | arrive target => exact ⟨stage, phase, chunks, at_arrive h target, still⟩
  | elapse by_ => exact ⟨stage, phase, chunks, at_elapse h by_, still⟩
  | proceed index first =>
    have first_ : index = 0 := of_decide_eq_true own
    subst first_
    obtain ⟨phase', chunks', there⟩ := at_proceed h first
    exact ⟨stage, phase', chunks', there, still⟩
  | _ => cases own

/-- The session never falls behind the console by more than the console keeps. -/
def KeepsUp (e : Errand) (turns : List Turn) : Prop :=
  e.start.Throughout (fun c =>
    c.service.session.capture.backlog c.service.session.console ≤ c.service.session.console.ring)
    turns

theorem at_prefix (e : Errand) {turns : List Turn} (own : ∀ t ∈ turns, t.isOwn = true)
    (before after : List Turn) (place : turns = before ++ after) :
    ∃ stage phase chunks, At e (e.KeepsUp turns) stage phase chunks (e.after before) ∧
      stage.endings e = e.endings before := by
  induction before using List.reverseRecOn generalizing after with
  | nil => exact ⟨.asked, .asking, [], e.at_start _, rfl⟩
  | append_singleton before t ih =>
    rw [List.append_assoc] at place
    obtain ⟨stage, phase, chunks, there, endings⟩ := ih (t :: after) place
    have mem : t ∈ turns := by simp [place]
    obtain ⟨stage', phase', chunks', there', grown⟩ :=
      at_turn there (own t mem) fun keepsUp => keepsUp before (t :: after) place
    refine ⟨stage', phase', chunks', ?_, ?_⟩
    · rw [Errand.after, Crew.run_concat]
      exact there'
    · rw [grown, endings, Errand.endings, Errand.endings, Crew.endings_concat]
      rfl

/-- A run of the errand brings the build to some stage; the tasks that have ended it are those of
    the stage. -/
theorem at_run (e : Errand) {turns : List Turn} (own : ∀ t ∈ turns, t.isOwn = true) :
    ∃ stage phase chunks, At e (e.KeepsUp turns) stage phase chunks (e.after turns) ∧
      stage.endings e = e.endings turns :=
  e.at_prefix own turns [] (List.append_nil _).symm

/-- What has come of an errand is known from the phase of the invoker. -/
theorem At.outcome? (h : At e lossless stage phase chunks c) :
    c.outcome? = match phase with
      | .over outcome => some outcome
      | _ => none := by
  obtain ⟨_, invokers, _⟩ := h.invoker
  rw [Crew.outcome?, invokers]
  cases phase <;> rfl

end Errand

end BuildSupervisor
