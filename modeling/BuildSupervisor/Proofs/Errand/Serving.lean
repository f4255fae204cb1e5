import BuildSupervisor.Proofs.Errand.Tending
/-!
# The service of an errand

`Errand.passes_step` says to which stage a turn of the service brings the build, and with which
task it ends it, if it does.
-/

namespace BuildSupervisor

/-- What a service does in a turn where its console is open. -/
theorem Service.step?_of_open {v : Service} (running : v.stopped = false)
    (isOpen : v.session.console.closed = false) :
    v.step? =
      match v.session.nextChunk.1 with
      | .chunk c => some { v with session := (v.session.nextChunk.2.onOutputChunk c).2 }
      | _ => { v with session := v.session.nextChunk.2 }.serve? := by
  unfold step?
  rw [if_neg (by simp [running])]
  have ne : v.session.nextChunk.1 ≠ .closed := Capture.next_ne_closed _ isOpen
  cases next : v.session.nextChunk with
  | mk chunk s =>
    rw [next] at ne
    cases chunk with
    | chunk c => rfl
    | pending => rfl
    | closed => exact absurd rfl ne

namespace Errand

variable {e : Errand} {lossless : Prop} {stage : Stage} {phase : InvokerPhase}
  {chunks : List Chunk} {c : Crew} {v w : Service}

/-! ## The start -/

/-- The service that the invoker has asked. -/
def asked (e : Errand) : Service :=
  let events := e.session.events
  { Service.new e.session e.located with
    session := { e.session with
      events := { events with
        channel := { events.channel with readers := events.channel.readers + 1 } } }
    inbox := [(0, .start e.request)] }

theorem start_eq (e : Errand) :
    e.start =
      { service := e.asked
        invokers := [e.invoker e.listener .asking]
        nextTicket := 1
        sent := [(0, .start e.request)] } := by
  have listening := e.booked.isOpen
  unfold start asked listener
  generalize e.session = session at listening ⊢
  obtain ⟨config, dialect, active, capture, lastId, console, events, _, _⟩ := session
  obtain ⟨⟨ring, published, readers, closed⟩, count⟩ := events
  cases listening
  rfl

theorem at_start (e : Errand) (lossless : Prop) : At e lossless .asked .asking [] e.start := by
  have quiet (task : Deferred) (mem : task ∈ e.asked.putOff) : e.MayBePutOff .asked task :=
    .stale (e.given task (by simpa [Service.putOff, asked, Service.new] using mem))
  rw [start_eq]
  refine ⟨⟨rfl, rfl, rfl, ?_, rfl, quiet, by simp [Stage.last?]⟩, ⟨_, rfl, fun _ => rfl⟩, .asked⟩
  exact {
    config := rfl
    dialect := rfl
    active := e.rest
    environment := (Session.reset_environment_of_rest e.rest).symm
    lastId := rfl
    isOpen := e.isOpen
    ending := e.ending
    listening := e.booked.isOpen
    published := e.booked.published
    roomy := e.roomy
    log := (List.append_nil _).symm
    gathered := fun _ busy => absurd rfl busy
    sound := trivial }

/-! ## The service -/

/-- What may be put off stays so. -/
theorem MayBePutOff.mono {next : Stage} {task : Deferred} (h : e.MayBePutOff stage task)
    (asked : stage ≠ .asked → next ≠ .asked)
    (reported : stage.isReported = true → next.isReported = true) : e.MayBePutOff next task := by
  cases h with
  | stale given => exact .stale given
  | watchdog watched taken => exact .watchdog watched (asked taken)
  | final told => exact .final (reported told)

/-- Only the watchdog that was set for the build may end it. -/
theorem MayBePutOff.watched (h : e.MayBePutOff stage (.watchdog e.id)) :
    e.session.config.watchdogTimeout? ≠ none := by
  generalize same : Deferred.watchdog e.id = task at h
  cases h with
  | stale given =>
    rw [← same] at given
    exact absurd given (Nat.not_succ_le_self _)
  | watchdog watched _ => exact watched
  | final _ => cases same

/-- The result of the build is put off only with what the invoker has told. -/
theorem MayBePutOff.eq_final {succeeded : Bool} {said : String}
    (h : e.MayBePutOff stage (.finalize e.id succeeded said)) :
    .finalize e.id succeeded said = e.final := by
  generalize same : Deferred.finalize e.id succeeded said = task at h
  cases h with
  | stale given =>
    rw [← same] at given
    exact absurd given (Nat.not_succ_le_self _)
  | watchdog _ _ => cases same
  | final _ => rfl

namespace Serves

/-- The session is another one, at the same stage, with the same schedule. -/
theorem of_session (h : Serves e lossless stage chunks v) {s : Session} {written : List Chunk}
    (tends : Tends e lossless stage written s) (schedule : s.schedule = v.session.schedule) :
    Serves e lossless stage written { v with session := s } := by
  have same : ({ v with session := s } : Service).putOff = v.putOff := by
    simp only [Service.putOff, schedule]
  refine ⟨h.running, h.handles, h.located, tends, h.replies, ?_, ?_⟩
  · rw [same]
    exact h.putOff
  · rw [same]
    exact h.due

/-- A task that ends no build is gone, and nothing else. -/
theorem drop (h : Serves e lossless stage chunks v) {task : Deferred} {rest : List Deferred}
    (arrived : v.arrived = task :: rest) (other : stage.last? e ≠ some task) :
    Serves e lossless stage chunks { v with arrived := rest } := by
  have split : v.putOff = task :: (rest ++ v.session.schedule.actions) := by
    rw [Service.putOff, arrived, List.cons_append]
  refine ⟨h.running, h.handles, h.located, h.tends, h.replies, ?_, ?_⟩
  · intro left mem
    refine h.putOff left ?_
    rw [split]
    exact List.mem_cons_of_mem _ mem
  · intro last there
    have mem := h.due last there
    rw [split] at mem
    rcases List.mem_cons.mp mem with rfl | mem
    · exact absurd there other
    · exact mem

/-- A service may take its time with what it has put off. -/
theorem hasten (h : Serves e lossless stage chunks v) :
    Serves e lossless stage chunks v.hasten := by
  have same : v.hasten.putOff = v.putOff := by
    simp only [Service.putOff, Service.hasten, Schedule.actions_noLaterThan]
  refine ⟨h.running, h.handles, h.located, h.tends.withSchedule _, h.replies, ?_, ?_⟩
  · rw [same]
    exact h.putOff
  · rw [same]
    exact h.due

/-- The last task of a stage ends the build of the stage. -/
theorem endBy?_of_last? {build : ActiveBuild} {task : Deferred}
    (active : stage.active? e = some build) (last : stage.last? e = some task) :
    build.endBy? task ≠ none := by
  cases stage with
  | building =>
    cases active
    obtain ⟨_, _, rfl⟩ := Option.map_eq_some_iff.mp last
    simp [ActiveBuild.endBy?, id, build, Session.opened]
  | reported =>
    cases active
    cases last
    simp [ActiveBuild.endBy?, final, id, build, Session.opened]
  | asked => cases active
  | expired => cases active
  | finished => cases active

/-- The service takes up the build. -/
theorem start (h : Serves e lossless .asked chunks v) :
    Serves e lossless .building [] (v.handle 0 (.start e.request)) := by
  obtain ⟨accepted, schedule, tends⟩ := h.tends.start
  have handled : v.handle 0 (.start e.request) =
      ({ v with session := (v.session.start e.located e.request).2 }.reply 0
        (.started (.ok (.accepted e.id)))).hasten := by
    rw [← accepted, ← h.located]
    rfl
  have putOff (task : Deferred) :
      task ∈ v.arrived ++ (v.session.start e.located e.request).2.schedule.actions ↔
        task ∈ v.putOff ∨ Stage.building.last? e = some task := by
    have number : v.session.lastId + 1 = e.id := congrArg (· + 1) h.tends.lastId
    rw [schedule, List.mem_append, Session.mem_putOffAtStart, number, h.tends.config,
      Service.putOff, List.mem_append, or_assoc, Stage.last?]
    cases e.session.config.watchdogTimeout? <;> simp [eq_comm]
  rw [handled]
  refine hasten ⟨h.running, h.handles, h.located, tends, ?_, ?_, ?_⟩
  · exact congrArg (· ++ _) h.replies
  · intro task mem
    rcases (putOff task).mp mem with old | new
    · exact (h.putOff task old).mono (by simp) (by simp [Stage.isReported])
    · obtain ⟨timeout, there, rfl⟩ := Option.map_eq_some_iff.mp new
      refine .watchdog ?_ (by simp)
      rw [there]
      exact Option.some_ne_none timeout
  · exact fun task last => (putOff task).mpr (.inr last)

/-- The service hears how the tool ended. -/
theorem report (h : Serves e lossless .building chunks v) {ticket : Ticket} :
    Serves e lossless .reported chunks
      (v.handle ticket
        (.buildComplete (e.toolEnd e.patched).succeeded (e.toolEnd e.patched).reported)) := by
  obtain ⟨schedule, tends⟩ :=
    h.tends.report (e.toolEnd e.patched).succeeded (e.toolEnd e.patched).reported
  have putOff (task : Deferred) :
      task ∈ v.arrived ++ (v.session.onBuildComplete (e.toolEnd e.patched).succeeded
          (e.toolEnd e.patched).reported).2.schedule.actions ↔
        task ∈ v.putOff ∨ task = e.final := by
    rw [schedule, List.mem_append, Schedule.mem_actions_schedule, Service.putOff, List.mem_append,
      or_assoc, or_comm (a := task = _)]
    rfl
  refine hasten (v := { v with session := _ })
    ⟨h.running, h.handles, h.located, tends, h.replies, ?_, ?_⟩
  · intro task mem
    rcases (putOff task).mp mem with old | rfl
    · exact (h.putOff task old).mono (by simp) (by simp [Stage.isReported])
    · exact .final rfl
  · intro task last
    exact (putOff task).mpr (.inr (Option.some.inj last).symm)

/-- A report that comes too late changes nothing. -/
theorem late (h : Serves e lossless stage chunks v) (rest : stage.active? e = none)
    {ticket : Ticket} {succeeded : Bool} {said : String} :
    Serves e lossless stage chunks (v.handle ticket (.buildComplete succeeded said)) := by
  have idle : v.session.state ≠ .building := by
    rw [Session.state, h.tends.active, rest]
    simp
  have same : v.handle ticket (.buildComplete succeeded said) = v.hasten := by
    simp only [Service.handle, Session.onBuildComplete_of_not_building idle]
  rw [same]
  exact h.hasten

/-- The build is gone, and so is the task that has ended it. -/
theorem ended (h : Serves e lossless stage chunks v) {task : Deferred} {rest : List Deferred}
    (arrived : v.arrived = task :: rest) {build : ActiveBuild} {how : BuildEnd} {next : Stage}
    (tends : Tends e lossless next chunks (v.session.conclude build how).2)
    (replies : next.replies e = stage.replies e) (last : next.last? e = none)
    (asked : next ≠ .asked) (reported : stage.isReported = true → next.isReported = true) :
    Serves e lossless next chunks
      { v with session := (v.session.conclude build how).2, arrived := rest } := by
  refine ⟨h.running, h.handles, h.located, tends, h.replies.trans replies.symm, ?_, ?_⟩
  · intro left mem
    refine (h.putOff left ?_).mono (fun _ => asked) reported
    rw [Service.putOff, arrived]
    exact List.mem_cons_of_mem _ mem
  · intro task there
    rw [last] at there
    cases there

end Serves

/-- The invoker does not notice that the build has expired. -/
theorem Attends.expire {inbox : List (Ticket × Command)}
    (h : Attends e .building phase inbox chunks) (result : BuildResult) :
    Attends e (.expired result) phase inbox chunks := by
  cases h with
  | building duty _ => exact .expired duty (.inl rfl)

theorem Attends.finish {inbox : List (Ticket × Command)}
    (h : Attends e .reported phase inbox chunks) :
    textsOf chunks = e.texts e.patched ∧
      ∀ result, Attends e (.finished result) phase inbox chunks := by
  cases h with
  | reported written => exact ⟨written, fun _ => .finished written⟩

/-- The service goes on to a stage, and what it has done may have ended the build. -/
structure Passes (e : Errand) (lossless : Prop) (stage : Stage) (phase : InvokerPhase)
    (chunks : List Chunk) (log : List Notification) (task? : Option Deferred) (next : Stage)
    (w : Service) : Prop where
  serves : Serves e lossless next chunks w
  attends : Attends e next phase w.inbox chunks
  endings : next.endings e = stage.endings e ++
    (if w.session.events.log = log then none else task?).toList
  reported : stage.isReported = true → next.isReported = true

/-- The stage stays. -/
theorem Passes.quiet {task? : Option Deferred} (h : Serves e lossless stage chunks v)
    (serves : Serves e lossless stage chunks w) (attends : Attends e stage phase w.inbox chunks) :
    Passes e lossless stage phase chunks v.session.events.log task? stage w := by
  have same : w.session.events.log = v.session.events.log := by
    rw [serves.tends.log, h.tends.log]
  refine ⟨serves, attends, ?_, fun reported => reported⟩
  rw [if_pos same, Option.toList_none, List.append_nil]

/-- The build has been ended by a task. -/
theorem Passes.ended {task : Deferred} {next : Stage} (h : Serves e lossless stage chunks v)
    (serves : Serves e lossless next chunks w) (attends : Attends e next phase w.inbox chunks)
    (told : (next.told e).length ≠ (stage.told e).length)
    (endings : next.endings e = stage.endings e ++ [task])
    (reported : stage.isReported = true → next.isReported = true) :
    Passes e lossless stage phase chunks v.session.events.log (some task) next w := by
  have other : w.session.events.log ≠ v.session.events.log := by
    rw [serves.tends.log, h.tends.log]
    intro same
    exact told (congrArg List.length (List.append_cancel_left same))
  refine ⟨serves, attends, ?_, reported⟩
  rw [if_neg other, endings, Option.toList_some]

/-- The service does what has arrived. -/
theorem passes_did (h : Serves e lossless stage chunks v)
    (attends : Attends e stage phase v.inbox chunks)
    (upToDate : v.session.capture.backlog v.session.console ≤ v.session.console.ring)
    {task : Deferred} {rest : List Deferred} (arrived : v.arrived = task :: rest) :
    ∃ next, Passes e lossless stage phase chunks v.session.events.log (some task) next
      { v with session := v.session.runDeferred task, arrived := rest } := by
  have allowed : e.MayBePutOff stage task := by
    refine h.putOff task ?_
    rw [Service.putOff, arrived]
    exact List.mem_cons_self
  have nothing (same : v.session.runDeferred task = v.session) (other : stage.last? e ≠ some task) :
      ∃ next, Passes e lossless stage phase chunks v.session.events.log (some task) next
        { v with session := v.session.runDeferred task, arrived := rest } := by
    rw [same]
    exact ⟨stage, .quiet h (h.drop arrived other) attends⟩
  -- A task is of no account where no build is at hand, and where it was put off for another one.
  cases active : stage.active? e with
  | none =>
    refine nothing (Session.runDeferred_of_rest (h.tends.active.trans active) task) ?_
    intro last
    cases stage <;> simp_all [Stage.last?, Stage.active?]
  | some build =>
    have current := h.tends.active.trans active
    cases ends : build.endBy? task with
    | none =>
      refine nothing (Session.runDeferred_of_endBy?_none current ends) ?_
      exact fun last => Serves.endBy?_of_last? active last ends
    | some how =>
      rw [Session.runDeferred_of_endBy? current ends]
      cases stage with
      | building =>
        cases active
        obtain ⟨_, _, phase, _⟩ | ⟨_, rfl, rfl⟩ := ActiveBuild.endBy?_eq_some ends
        · cases phase
        · have tends := h.tends.expire allowed.watched
          exact ⟨_, .ended h (h.ended arrived tends rfl rfl (by simp) (by simp [Stage.isReported]))
            (attends.expire _) (by simp [Stage.told]) rfl (by simp [Stage.isReported])⟩
      | reported =>
        cases active
        obtain ⟨succeeded, said, _, rfl, rfl⟩ | ⟨phase, _⟩ := ActiveBuild.endBy?_eq_some ends
        · have final : Deferred.finalize e.build.id succeeded said = e.final := allowed.eq_final
          cases final
          obtain ⟨written, goesOn⟩ := attends.finish
          have tends := h.tends.finish (fun _ => upToDate) written rfl rfl
          exact ⟨_, .ended h (h.ended arrived tends rfl rfl (by simp) fun _ => rfl)
            (goesOn _) (by simp [Stage.told]) rfl fun _ => rfl⟩
        · cases phase
      | _ => cases active

/-- The service does what a command asks. -/
theorem passes_took (h : Serves e lossless stage chunks v) {ticket : Ticket} {command : Command}
    {rest : List (Ticket × Command)}
    (attends : Attends e stage phase ((ticket, command) :: rest) chunks) :
    ∃ next, Passes e lossless stage phase chunks v.session.events.log none next
      ({ v with inbox := rest }.handle ticket command) := by
  have h' : Serves e lossless stage chunks { v with inbox := rest } := { h with }
  have unended {w : Service} {next : Stage} (serves : Serves e lossless next chunks w)
      (attends : Attends e next phase w.inbox chunks)
      (endings : next.endings e = stage.endings e)
      (reported : stage.isReported = true → next.isReported = true) :
      Passes e lossless stage phase chunks v.session.events.log none next w :=
    ⟨serves, attends, by rw [ite_self, endings, Option.toList_none, List.append_nil], reported⟩
  cases attends with
  | asked => exact ⟨_, unended h'.start (.building .asking (by simp)) rfl nofun⟩
  | building duty _ =>
    cases duty with
    | sent written => exact ⟨_, unended h'.report (.reported written) rfl fun _ => rfl⟩
  | expired duty place =>
    cases duty with
    | sent written => exact ⟨_, unended (h'.late rfl) (.expired (.heard written) place) rfl nofun⟩
  | failed duty place =>
    cases duty with
    | sent written => exact ⟨_, unended (h'.late rfl) (.failed (.heard written) place) rfl nofun⟩

/-- What the service does where no chunk waits. -/
theorem passes_serve? (h : Serves e lossless stage chunks v)
    (attends : Attends e stage phase v.inbox chunks)
    (quiet : v.session.capture.backlog v.session.console = 0) (step : v.serve? = some w) :
    ∃ next, Passes e lossless stage phase chunks v.session.events.log v.arrived.head? next w := by
  unfold Service.serve? at step
  split at step
  · rename_i task rest arrived
    cases step
    rw [arrived]
    exact passes_did h attends (by rw [quiet]; exact Nat.zero_le _) arrived
  · rename_i arrived
    rw [arrived]
    split at step
    · rename_i ticket command rest inbox
      cases step
      rw [inbox] at attends
      exact passes_took h attends
    · rw [if_neg (by rw [h.handles]; exact Nat.one_ne_zero)] at step
      cases step

/-- A turn of the service. -/
theorem passes_step (h : Serves e lossless stage chunks v)
    (attends : Attends e stage phase v.inbox chunks)
    (upToDate : lossless → v.session.capture.backlog v.session.console ≤ v.session.console.ring)
    (step : v.step? = some w) :
    ∃ next, Passes e lossless stage phase chunks v.session.events.log v.dueTask? next w := by
  rw [Service.step?_of_open h.running h.tends.isOpen] at step
  split at step
  · rename_i c next
    cases step
    exact ⟨stage, .quiet h (h.of_session (h.tends.hear upToDate next) rfl) attends⟩
  · rename_i next
    have due : v.dueTask? = v.arrived.head? := by
      have attentive : v.isAttentive = true := by
        unfold Service.isAttentive
        split
        · rename_i c there
          exact absurd there (next c)
        · rw [h.running]
          rfl
      rw [Service.dueTask?, if_pos attentive]
    have listened : Serves e lossless stage chunks { v with session := v.session.nextChunk.2 } :=
      h.of_session (h.tends.listen upToDate next) rfl
    have passes := passes_serve? listened attends (Capture.backlog_next next) step
    rw [due]
    exact passes

end Errand

end BuildSupervisor
