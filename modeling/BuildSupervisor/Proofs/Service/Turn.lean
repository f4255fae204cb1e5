import BuildSupervisor.Proofs.Service.Entry
import BuildSupervisor.Proofs.Session.Lifecycle
import BuildSupervisor.Proofs.Session.Tasks
/-!
# Turns of a service

`Service.step_cases` lists what a service does in a turn, and says of every turn which task or
command it is about.  The rest of the file says from it what a turn does to the tasks that are put
off, to the inbox and to the replies.
-/

namespace BuildSupervisor

namespace Service

/-- The service has looked at its console, and that is all. -/
structure Listened (v w : Service) : Prop where
  books : v.session.SameBooks w.session
  schedule : w.session.schedule = v.session.schedule
  located : w.located = v.located
  arrived : w.arrived = v.arrived
  inbox : w.inbox = v.inbox
  replies : w.replies = v.replies
  handles : w.handles = v.handles
  stopped : w.stopped = v.stopped

/-- Whether the service turns to what has arrived and to the commands: it runs, and no chunk
    waits. -/
def isAttentive (v : Service) : Bool :=
  match v.session.nextChunk.1 with
  | .chunk _ => false
  | _ => !v.stopped

/-- The task that the next turn is about. -/
def dueTask? (v : Service) : Option Deferred :=
  if v.isAttentive then v.arrived.head? else none

/-- The command that the next turn is about. -/
def dueCommand? (v : Service) : Option (Ticket × Command) :=
  if v.isAttentive && v.arrived.isEmpty then v.inbox.head? else none

/-- What a service does in a turn. -/
inductive Step (v : Service) : Option Service → Prop where
  | waits : v.dueTask? = none → v.dueCommand? = none → Step v none
  | heard {w} : v.dueTask? = none → v.dueCommand? = none → Listened v w → Step v (some w)
  | did {w task rest} : v.dueTask? = some task → v.dueCommand? = none →
      v.arrived = task :: rest → Listened v w →
      Step v (some { w with session := w.session.runDeferred task, arrived := rest })
  | took {w ticket command rest} : v.dueTask? = none → v.dueCommand? = some (ticket, command) →
      v.arrived = [] → v.inbox = (ticket, command) :: rest → Listened v w →
      Step v (some ({ w with inbox := rest }.handle ticket command))
  | ended {w} : v.dueTask? = none → v.dueCommand? = none → Listened v w → Step v (some w.stop)

theorem listened_listened (v : Service) : Listened v v.listened :=
  ⟨v.session.sameBooks_nextChunk, rfl, rfl, rfl, rfl, rfl, rfl, rfl⟩

/-- The service turns to what has arrived and to the commands if it runs and no chunk waits. -/
theorem isAttentive_iff {v : Service} : v.isAttentive = true ↔ v.stopped = false ∧ v.IsQuiet := by
  unfold isAttentive IsQuiet
  split
  · rename_i c next
    simp [next]
  · rename_i other
    simpa using fun _ => other

/-- The list of what a service does is complete. -/
theorem step_cases (v : Service) : Step v v.step? := by
  have looked := v.listened_listened
  cases step : v.step? with
  | none =>
    rcases waits_of_step step with stopped | ⟨_, arrived, inbox, _⟩
    · have h : v.isAttentive = false := by
        rw [← Bool.not_eq_true, isAttentive_iff, stopped]
        exact nofun
      exact .waits (by simp [dueTask?, h]) (by simp [dueCommand?, h])
    · exact .waits (by simp [dueTask?, arrived]) (by simp [dueCommand?, inbox])
  | some w =>
    obtain ⟨running, e, _, enters⟩ := enters_of_step step
    have attentive (quiet : v.IsQuiet) : v.isAttentive = true :=
      isAttentive_iff.mpr ⟨running, quiet⟩
    cases enters with
    | @heard c next =>
      have h : v.isAttentive = false := by
        rw [← Bool.not_eq_true, isAttentive_iff]
        exact fun quiet => quiet.2 c next
      refine .heard (by simp [dueTask?, h]) (by simp [dueCommand?, h]) ?_
      exact ⟨looked.books.trans ⟨rfl, rfl, rfl, rfl, rfl, rfl⟩, looked.schedule, rfl, rfl, rfl,
        rfl, rfl, rfl⟩
    | did quiet arrived =>
      exact .did (by simp [dueTask?, attentive quiet, arrived]) (by simp [dueCommand?, arrived])
        arrived looked
    | took quiet arrived inbox =>
      exact .took (by simp [dueTask?, arrived])
        (by simp [dueCommand?, attentive quiet, arrived, inbox]) arrived inbox looked
    | looked _ arrived inbox =>
      exact .heard (by simp [dueTask?, arrived]) (by simp [dueCommand?, inbox]) looked
    | left _ arrived inbox =>
      exact .ended (by simp [dueTask?, arrived]) (by simp [dueCommand?, inbox]) looked

/-! ## What a turn does to tasks, inbox and replies -/

/-- What is put off: what has arrived, and what is scheduled. -/
def putOff (v : Service) : List Deferred :=
  v.arrived ++ v.session.schedule.actions

theorem mem_putOff_of_dueTask? {v : Service} {task : Deferred} (h : v.dueTask? = some task) :
    task ∈ v.putOff := by
  unfold dueTask? at h
  split at h
  · exact List.mem_append_left _ (List.mem_of_head? h)
  · cases h

theorem mem_inbox_of_dueCommand? {v : Service} {m : Ticket × Command}
    (h : v.dueCommand? = some m) : m ∈ v.inbox := by
  unfold dueCommand? at h
  split at h
  · exact List.mem_of_head? h
  · cases h

/-- A service that has stopped turns to nothing. -/
theorem dueCommand?_of_stopped {v : Service} (h : v.stopped = true) : v.dueCommand? = none := by
  have unattentive : v.isAttentive = false := by
    unfold isAttentive
    split
    · rfl
    · rw [h]
      rfl
  simp [dueCommand?, unattentive]

theorem Listened.putOff {v w : Service} (h : Listened v w) : w.putOff = v.putOff := by
  rw [Service.putOff, Service.putOff, h.arrived, h.schedule]

/-- What a command puts off. -/
theorem mem_putOff_handle {v : Service} {ticket : Ticket} {command : Command} {task : Deferred}
    (h : task ∈ (v.handle ticket command).putOff) :
    task ∈ v.putOff ∨
      (v.session.config.watchdogTimeout? ≠ none ∧ ∃ id, task = .watchdog id) ∨
      ∃ succeeded said build, command = .buildComplete succeeded said ∧
        v.session.active = some build ∧ build.phase = .building ∧
        task = .finalize build.id succeeded said := by
  cases command with
  | start request =>
    rcases List.mem_append.mp h with there | scheduled
    · exact .inl (List.mem_append_left _ there)
    · change task ∈ (Schedule.noLaterThan _ _).actions at scheduled
      rw [Schedule.actions_noLaterThan] at scheduled
      rcases Session.mem_actions_start scheduled with old | ⟨timeout, new⟩
      · exact .inl (List.mem_append_right _ old)
      · exact .inr (.inl ⟨timeout, _, new⟩)
  | buildComplete succeeded said =>
    rcases List.mem_append.mp h with there | scheduled
    · exact .inl (List.mem_append_left _ there)
    · change task ∈ (Schedule.noLaterThan _ _).actions at scheduled
      rw [Schedule.actions_noLaterThan] at scheduled
      rcases Session.mem_actions_onBuildComplete scheduled with old | ⟨build, active, phase, new⟩
      · exact .inl (List.mem_append_right _ old)
      · exact .inr (.inr ⟨succeeded, said, build, rfl, active, phase, new⟩)
  | reset => exact .inl h
  | status => exact .inl h
  | shutdown =>
    rcases List.mem_append.mp h with there | scheduled
    · cases there
    · exact .inl (List.mem_append_right _ scheduled)

/-- What a turn puts off. -/
theorem mem_putOff_step {v w : Service} {task : Deferred} (step : Step v (some w))
    (h : task ∈ w.putOff) :
    task ∈ v.putOff ∨
      (v.session.config.watchdogTimeout? ≠ none ∧ ∃ id, task = .watchdog id) ∨
      ∃ ticket succeeded said build, v.dueCommand? = some (ticket, .buildComplete succeeded said) ∧
        v.session.active = some build ∧ build.phase = .building ∧
        task = .finalize build.id succeeded said := by
  cases step with
  | heard _ _ looked => exact .inl (looked.putOff ▸ h)
  | did _ _ arrived looked =>
    refine .inl ?_
    rw [putOff, arrived]
    rcases List.mem_append.mp h with there | scheduled
    · exact List.mem_append_left _ (List.mem_cons_of_mem _ there)
    · change task ∈ (Session.runDeferred _ _).schedule.actions at scheduled
      rw [Session.schedule_runDeferred, looked.schedule] at scheduled
      exact List.mem_append_right _ scheduled
  | @took u ticket command rest _ due _ _ looked =>
    have same : ({ u with inbox := rest } : Service).putOff = v.putOff := looked.putOff
    rcases mem_putOff_handle h with old | ⟨timeout, new⟩ |
      ⟨succeeded, said, build, rfl, active, phase, new⟩
    · exact .inl (same ▸ old)
    · exact .inr (.inl ⟨looked.books.config ▸ timeout, new⟩)
    · exact .inr (.inr ⟨ticket, succeeded, said, build, due, looked.books.active.symm.trans active,
        phase, new⟩)
  | ended _ _ looked =>
    rcases List.mem_append.mp h with there | scheduled
    · cases there
    · exact .inl (looked.putOff ▸ List.mem_append_right _ scheduled)

/-- A command leaves the inbox as it is, or empties it. -/
theorem mem_inbox_handle {v : Service} {ticket : Ticket} {command : Command}
    {m : Ticket × Command} (h : m ∈ (v.handle ticket command).inbox) : m ∈ v.inbox := by
  cases command with
  | shutdown => cases h
  | _ => exact h

/-- A turn puts nothing into the inbox. -/
theorem mem_inbox_step {v w : Service} {m : Ticket × Command} (step : Step v (some w))
    (h : m ∈ w.inbox) : m ∈ v.inbox := by
  cases step with
  | heard _ _ looked => exact looked.inbox ▸ h
  | did _ _ _ looked => exact looked.inbox ▸ h
  | took _ _ _ inbox _ =>
    rw [inbox]
    exact List.mem_cons_of_mem _ (mem_inbox_handle h)
  | ended _ _ _ => cases h

/-- A command is answered at most once, and behind all other answers. -/
theorem replies_handle (v : Service) (ticket : Ticket) (command : Command) :
    ∃ more, (v.handle ticket command).replies = v.replies ++ more := by
  cases command with
  | start request => exact ⟨_, rfl⟩
  | reset => exact ⟨_, rfl⟩
  | status => exact ⟨_, rfl⟩
  | buildComplete succeeded said => exact ⟨[], (List.append_nil _).symm⟩
  | shutdown => exact ⟨[], (List.append_nil _).symm⟩

/-- An answer that has been given stays. -/
theorem reply?_step {v w : Service} {ticket : Ticket} {r : Reply} (step : Step v (some w))
    (h : v.reply? ticket = some r) : w.reply? ticket = some r := by
  have grown : ∃ more, w.replies = v.replies ++ more := by
    cases step with
    | heard _ _ looked => exact ⟨[], by rw [looked.replies, List.append_nil]⟩
    | did _ _ _ looked => exact ⟨[], by rw [looked.replies, List.append_nil]⟩
    | @took u ticket command rest _ _ _ _ looked =>
      rw [← looked.replies]
      exact replies_handle { u with inbox := rest } ticket command
    | ended _ _ looked => exact ⟨[], by rw [stop, looked.replies, List.append_nil]⟩
  obtain ⟨more, grown⟩ := grown
  unfold reply? at h ⊢
  rw [grown, List.lookup_append, h, Option.some_or]

/-! ## What a turn does to builds -/

/-- What a start does that accepts a build. -/
theorem accepted_start {s : Session} {located : Located} {request : BuildRequest} {id : BuildId}
    (accepted : (s.start located request).1 = .ok (.accepted id)) :
    id = s.lastId + 1 ∧ (s.start located request).2.lastId = id ∧
      (∃ build, (s.start located request).2.active = some build ∧ build.id = id ∧
        build.phase = .building) ∧
      (s.config.reentry = .reject → s.active = none) := by
  have effect := Session.effect_start s located request
  rw [accepted] at effect
  generalize ht : (s.start located request).2 = t at effect
  cases effect with
  | kept _ quiet _ _ => cases quiet
  | ended _ _ _ mayEnd _ _ _ => cases mayEnd
  | accepted _ _ books =>
    refine ⟨rfl, books.lastId, ⟨_, books.active, rfl, rfl⟩, ?_⟩
    intro rejects
    cases active : s.active with
    | none => rfl
    | some build =>
      unfold Session.start at accepted
      rw [active, rejects] at accepted
      cases accepted

/-- A turn does to the books of the session nothing, or what one operation does to them. -/
theorem operation_step {v w : Service} (step : Step v (some w)) :
    ∃ u : Session, v.session.SameBooks u ∧
      (u.SameBooks w.session ∨ ∃ op, (u.apply op).2.SameBooks w.session) := by
  cases step with
  | heard _ _ looked => exact ⟨_, looked.books, .inl (.refl _)⟩
  | @did u task rest _ _ _ looked =>
    refine ⟨u.session, looked.books, .inr ?_⟩
    cases task with
    | finalize id succeeded said => exact ⟨.finalize id succeeded said, .refl _⟩
    | watchdog id => exact ⟨.watchdog id, .refl _⟩
  | @took u ticket command rest _ _ _ _ looked =>
    refine ⟨u.session, looked.books, ?_⟩
    cases command with
    | start request => exact .inr ⟨.start u.located request, ⟨rfl, rfl, rfl, rfl, rfl, rfl⟩⟩
    | buildComplete succeeded said =>
      exact .inr ⟨.buildComplete succeeded said, ⟨rfl, rfl, rfl, rfl, rfl, rfl⟩⟩
    | reset => exact .inr ⟨.reset, .refl _⟩
    | status => exact .inl (.refl _)
    | shutdown => exact .inr ⟨.reset, .refl _⟩
  | @ended u _ _ looked => exact ⟨u.session, looked.books, .inr ⟨.reset, .refl _⟩⟩

theorem config_step {v w : Service} (step : Step v (some w)) :
    w.session.config = v.session.config := by
  obtain ⟨u, before, same | ⟨op, after⟩⟩ := operation_step step
  · exact same.config.trans before.config
  · exact after.config.trans ((Session.effect_apply u op).settings.1.trans before.config)

/-- Numbers are never given back. -/
theorem lastId_le_step {v w : Service} (step : Step v (some w)) :
    v.session.lastId ≤ w.session.lastId := by
  obtain ⟨u, before, same | ⟨op, after⟩⟩ := operation_step step
  · exact Nat.le_of_eq (same.lastId.trans before.lastId).symm
  · have taken := (Session.lastId_apply (Session.effect_apply u op)).1
    rw [after.lastId, taken, before.lastId]
    exact Nat.le_add_right _ _

/-- A service that has stopped stays so. -/
theorem running_step {v w : Service} (step : Step v (some w)) (running : w.stopped = false) :
    v.stopped = false := by
  cases step with
  | heard _ _ looked => exact looked.stopped.symm.trans running
  | did _ _ _ looked => exact looked.stopped.symm.trans running
  | @took u ticket command rest _ _ _ _ looked =>
    cases command with
    | shutdown => cases running
    | _ => exact looked.stopped.symm.trans running
  | ended _ _ _ => cases running

/-- The build is accepted in the turn, for the one who asked under the ticket. -/
structure Accepts (v w : Service) (ticket : Ticket) (id : BuildId) : Prop where
  asked : ∃ request, v.dueCommand? = some (ticket, .start request)
  fresh : id = v.session.lastId + 1
  last : w.session.lastId = id
  active : ∃ build, w.session.active = some build ∧ build.id = id ∧ build.phase = .building
  alone : v.session.config.reentry = .reject → v.session.active = none

/-- A reply that is there after one has been added was there before, or is that one. -/
theorem reply?_concat {v w : Service} {ticket first : Ticket} {r r' : Reply}
    (replies : w.replies = v.replies ++ [(first, r)]) (h : w.reply? ticket = some r') :
    v.reply? ticket = some r' ∨ ticket = first ∧ r = r' := by
  rw [reply?, replies, List.lookup_append, Option.or_eq_some_iff] at h
  rcases h with before | ⟨_, now⟩
  · exact .inl before
  · rw [List.lookup_cons] at now
    split at now
    · rename_i equal
      exact .inr ⟨beq_iff_eq.mp equal, Option.some.inj now⟩
    · cases now

/-- A build that has been accepted was so before, or it is accepted in this turn. -/
theorem accepted_step {v w : Service} {ticket : Ticket} {id : BuildId} (step : Step v (some w))
    (h : w.reply? ticket = some (.started (.ok (.accepted id)))) :
    v.reply? ticket = some (.started (.ok (.accepted id))) ∨ Accepts v w ticket id := by
  have same (replies : w.replies = v.replies) :
      v.reply? ticket = some (.started (.ok (.accepted id))) := by
    rw [← h, reply?, reply?, replies]
  cases step with
  | heard _ _ looked => exact .inl (same looked.replies)
  | did _ _ _ looked => exact .inl (same looked.replies)
  | @took u first command rest _ due _ _ looked =>
    cases command with
    | start request =>
      have replies := congrArg (· ++ [(first, Reply.started (u.session.start u.located request).1)])
        looked.replies
      rcases reply?_concat replies h with before | ⟨rfl, now⟩
      · exact .inl before
      · obtain ⟨fresh, last, active, alone⟩ := accepted_start (Reply.started.inj now)
        refine .inr ⟨⟨request, due⟩, ?_, last, active, ?_⟩
        · rw [fresh, looked.books.lastId]
        · rw [← looked.books.config, ← looked.books.active]
          exact alone
    | buildComplete succeeded said => exact .inl (same looked.replies)
    | reset =>
      have replies := congrArg (· ++ [(first, Reply.done)]) looked.replies
      rcases reply?_concat replies h with before | ⟨_, now⟩
      · exact .inl before
      · cases now
    | status =>
      have replies := congrArg (· ++ [(first, Reply.status u.session.status)]) looked.replies
      rcases reply?_concat replies h with before | ⟨_, now⟩
      · exact .inl before
      · cases now
    | shutdown => exact .inl (same looked.replies)
  | ended _ _ looked => exact .inl (same looked.replies)

end Service

end BuildSupervisor
