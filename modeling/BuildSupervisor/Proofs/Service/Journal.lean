import BuildSupervisor.Proofs.Service.Turn
import BuildSupervisor.Proofs.Session.Gathering
import BuildSupervisor.Proofs.Session.Timeless
/-!
# The journal of a service

`Entry.calls` are the calls that a service makes to its session for one entry of its journal.
`Service.Noted` says what the entry does: to the session, which goes the way of a plain session on
which the calls are made, to the commands and tasks that wait, and to the replies.
-/

namespace BuildSupervisor

/-- The call that does a put-off task. -/
def Deferred.operation : Deferred → Operation
  | .finalize id succeeded said => .finalize id succeeded said
  | .watchdog id => .watchdog id

namespace Command

/-- The call that does what a command asks; a question for the status is none. -/
def operation? (located : Located) : Command → Option Operation
  | .start request => some (.start located request)
  | .buildComplete succeeded said => some (.buildComplete succeeded said)
  | .reset => some .reset
  | .status => none
  | .shutdown => some .reset

/-- Whether whoever sends the command waits for a reply. -/
def isAnswered : Command → Bool
  | .start _ => true
  | .buildComplete .. => false
  | .reset => true
  | .status => true
  | .shutdown => false

/-- What a plain session answers. -/
def reply? (s : Session) (located : Located) : Command → Option Reply
  | .start request => some (.started (s.start located request).1)
  | .buildComplete .. => none
  | .reset => some .done
  | .status => some (.status s.status)
  | .shutdown => none

end Command

namespace Entry

/-- The calls that are made. -/
def calls : Entry → List Operation
  | .heard c => [.nextChunk, .outputChunk c]
  | .did task => [.nextChunk, task.operation]
  | .took _ command located => .nextChunk :: (command.operation? located).toList
  | .looked => [.nextChunk]
  | .left => [.nextChunk, .reset]
  | .written c => [.write c]
  | .closed => [.closeConsole]

/-- The command that is handled. -/
def taken? : Entry → Option (Ticket × Command)
  | .took ticket command _ => some (ticket, command)
  | _ => none

/-- The put-off task that is done. -/
def done? : Entry → Option Deferred
  | .did task => some task
  | _ => none

/-- The reply of a plain session on which the calls are made. -/
def reply? (s : Session) : Entry → Option (Ticket × Reply)
  | .took ticket command located =>
    (command.reply? s.nextChunk.2 located).map fun r => (ticket, r)
  | _ => none

/-- Whether the service stops with it. -/
def ends : Entry → Bool
  | .took _ .shutdown _ => true
  | .left => true
  | _ => false

theorem timeless_calls (e : Entry) : ∀ op ∈ e.calls, op.IsTimeless := by
  intro op mem by_ same
  subst same
  cases e with
  | did task => cases task <;> simp [calls, Deferred.operation] at mem
  | took ticket command located => cases command <;> simp [calls, Command.operation?] at mem
  | _ => simp [calls] at mem

/-- A command is answered exactly if its sender waits for that. -/
theorem isAnswered_of_reply? (s : Session) (e : Entry) :
    (e.reply? s).toList.map Prod.fst =
      (e.taken?.toList.filter fun m => m.2.isAnswered).map Prod.fst := by
  cases e with
  | took ticket command located => cases command <;> rfl
  | _ => rfl

theorem reply?_of_taken? {e : Entry} (h : e.taken? = none) (s : Session) : e.reply? s = none := by
  cases e with
  | took => cases h
  | _ => rfl

theorem reply?_of_same {s t : Session} (h : s.SameButSchedule t) (e : Entry) :
    e.reply? t = e.reply? s := by
  cases e with
  | took ticket command located =>
    have looked := h.nextChunk.2
    cases command with
    | start request => simp only [reply?, Command.reply?, (looked.start located request).1]
    | status => simp only [reply?, Command.reply?, looked.status]
    | _ => rfl
  | _ => rfl

end Entry

namespace Service

/-! ## What an entry does -/

/-- The service has become `w` by what the entry says. -/
structure Noted (v : Service) (e : Entry) (w : Service) : Prop where
  /-- The session goes the way of a plain one. -/
  session : (v.session.run e.calls).SameButSchedule w.session
  /-- The reply is that of a plain session. -/
  replies : w.replies = v.replies ++ (e.reply? v.session).toList
  /-- The command that is handled is the first of those that wait; the others wait on unless the
      service stops. -/
  inbox : ∃ left, v.inbox = e.taken?.toList ++ left ∧ w.inbox = if e.ends then [] else left
  /-- The task that is done is the first of those that have arrived. -/
  arrived : ∃ left, v.arrived = e.done?.toList ++ left ∧ w.arrived = if e.ends then [] else left
  /-- As many tasks are put off as by a plain session. -/
  actions : w.session.schedule.actions = (v.session.run e.calls).schedule.actions
  stopped : w.stopped = (v.stopped || e.ends)
  cause : e.ends = true →
    (∃ ticket rest, v.inbox = (ticket, .shutdown) :: rest) ∨ v.handles = 0 ∧ v.inbox = []
  rests : e.ends = true → w.session = v.session.nextChunk.2.reset
  /-- A service that has stopped does nothing. -/
  idle : v.stopped = true → e.taken? = none ∧ v.session.SameBooks w.session
  /-- The build at hand was so before, and what is read for it is read on; or it is taken up now. -/
  reads : ∀ build, w.session.active = some build →
    (∃ before, v.session.active = some before ∧ before.id = build.id ∧
        ∀ n, v.session.ReadsFrom n → w.session.ReadsFrom n) ∨
      ∃ ticket, e.reply? v.session = some (ticket, .started (.ok (.accepted build.id))) ∧
        w.session.ReadsFrom v.session.console.sent.length

namespace Enters

variable {v w : Service} {e : Entry} (h : Enters v e w)

include h

theorem session : (v.session.run e.calls).SameButSchedule w.session := by
  cases h with
  | heard => exact .refl _
  | @did task => cases task <;> exact .refl _
  | @took ticket command =>
    cases command with
    | start => exact ⟨_, rfl⟩
    | buildComplete => exact ⟨_, rfl⟩
    | _ => exact .refl _
  | looked => exact .refl _
  | left => exact .refl _

theorem replies : w.replies = v.replies ++ (e.reply? v.session).toList := by
  cases h with
  | @took ticket command =>
    cases command with
    | buildComplete => exact (List.append_nil _).symm
    | shutdown => exact (List.append_nil _).symm
    | _ => rfl
  | _ => exact (List.append_nil _).symm

theorem inbox : ∃ left, v.inbox = e.taken?.toList ++ left ∧
    w.inbox = if e.ends then [] else left := by
  cases h with
  | @took ticket command rest _ _ inbox =>
    refine ⟨rest, inbox, ?_⟩
    cases command <;> rfl
  | looked _ _ inbox => exact ⟨[], inbox, inbox⟩
  | left _ _ inbox => exact ⟨[], inbox, rfl⟩
  | _ => exact ⟨v.inbox, rfl, rfl⟩

theorem arrived : ∃ left, v.arrived = e.done?.toList ++ left ∧
    w.arrived = if e.ends then [] else left := by
  cases h with
  | did _ arrived => exact ⟨_, arrived, rfl⟩
  | @took ticket command rest _ arrived =>
    refine ⟨[], arrived, ?_⟩
    cases command with
    | shutdown => rfl
    | _ => exact arrived
  | left _ arrived => exact ⟨[], arrived, rfl⟩
  | _ => exact ⟨v.arrived, rfl, rfl⟩

theorem actions : w.session.schedule.actions = (v.session.run e.calls).schedule.actions := by
  cases h with
  | @did task => cases task <;> rfl
  | @took ticket command =>
    cases command with
    | start => exact Schedule.actions_noLaterThan _ _
    | buildComplete => exact Schedule.actions_noLaterThan _ _
    | _ => rfl
  | _ => rfl

theorem stopped (running : v.stopped = false) : w.stopped = e.ends := by
  cases h with
  | @took ticket command => cases command <;> first | rfl | exact running
  | left => rfl
  | _ => exact running

theorem cause (ends : e.ends = true) :
    (∃ ticket rest, v.inbox = (ticket, .shutdown) :: rest) ∨ v.handles = 0 ∧ v.inbox = [] := by
  cases h with
  | @took ticket command rest _ _ inbox =>
    cases command with
    | shutdown => exact .inl ⟨ticket, rest, inbox⟩
    | _ => cases ends
  | left _ _ inbox free => exact .inr ⟨free, inbox⟩
  | _ => cases ends

/-- A command leaves the inbox only where no task has arrived, and no chunk can be read. -/
theorem attentive (taken : w.inbox ≠ v.inbox) :
    v.arrived = [] ∧ v.session.capture.readable v.session.console = [] := by
  cases h with
  | took quiet arrived => exact ⟨arrived, Capture.readable_of_next quiet⟩
  | left _ _ inbox => exact absurd inbox.symm taken
  | _ => exact absurd rfl taken

theorem reads {build : ActiveBuild} (active : w.session.active = some build) :
    (∃ before, v.session.active = some before ∧ before.id = build.id ∧
        ∀ n, v.session.ReadsFrom n → w.session.ReadsFrom n) ∨
      ∃ ticket, e.reply? v.session = some (ticket, .started (.ok (.accepted build.id))) ∧
        w.session.ReadsFrom v.session.console.sent.length := by
  have looked (quiet : v.IsQuiet) (n : Nat) (h : v.session.ReadsFrom n) :
      v.listened.session.ReadsFrom n := h.listen quiet
  cases h with
  | heard next => exact .inl ⟨build, active, rfl, fun n h => h.hear next⟩
  | @did task rest quiet =>
    dsimp only at active ⊢
    rcases v.listened.session.runDeferred_cases task with same | ⟨_, _, _, _, _, _, same⟩
    · rw [same] at active ⊢
      exact .inl ⟨build, active, rfl, looked quiet⟩
    · rw [same] at active
      cases active
  | @took ticket command rest quiet =>
    cases command with
    | start request =>
      have active : (v.listened.session.start v.located request).2.active = some build := active
      rcases Session.readsFrom_start active with same | ⟨accepted, reads⟩
      · rw [same] at active
        refine .inl ⟨build, active, rfl, fun n h => ?_⟩
        have reads := looked quiet n h
        rw [← same] at reads
        exact ⟨reads.begun, reads.sifted⟩
      · have feed := v.session.capture.sameFeed_next v.session.console
        have length := congrArg List.length feed.sent
        have reads : Session.ReadsFrom v.session.console.sent.length _ := length ▸ reads
        exact .inr ⟨ticket, congrArg (fun r => some (ticket, Reply.started r)) accepted,
          reads.begun, reads.sifted⟩
    | buildComplete succeeded said =>
      obtain ⟨capture, console, _⟩ := v.listened.session.onBuildComplete_keeps succeeded said
      have active := (v.listened.session.active_onBuildComplete succeeded said).symm.trans active
      obtain ⟨before, there, rfl⟩ := Option.map_eq_some_iff.mp active
      refine .inl ⟨before, there, rfl, fun n h => ?_⟩
      have reads := looked quiet n h
      have reads' : Session.ReadsFrom n
          (v.listened.session.onBuildComplete succeeded said).2 := by
        refine reads.of_feed (by rw [console]; exact .refl _) ?_
        rw [capture, console]
        exact reads.sifted
      exact ⟨reads'.begun, reads'.sifted⟩
    | reset => cases active
    | status => exact .inl ⟨build, active, rfl, looked quiet⟩
    | shutdown => cases active
  | looked quiet => exact .inl ⟨build, active, rfl, looked quiet⟩
  | left => cases active

/-- A service that stops leaves its session at rest. -/
theorem rests (ends : e.ends = true) : w.session = v.session.nextChunk.2.reset := by
  cases h with
  | @took ticket command =>
    cases command with
    | shutdown => rfl
    | _ => cases ends
  | left => rfl
  | _ => cases ends

theorem noted (running : v.stopped = false) : Noted v e w where
  session := h.session
  replies := h.replies
  inbox := h.inbox
  arrived := h.arrived
  actions := h.actions
  stopped := by rw [running, Bool.false_or, h.stopped running]
  cause := h.cause
  rests := h.rests
  idle stopped := by
    rw [running] at stopped
    cases stopped
  reads _ := h.reads

end Enters

/-- What others do to the console is not for the service to take up or to answer. -/
theorem noted_console {v : Service} {e : Entry} {console : Console}
    (run : v.session.run e.calls = { v.session with console := console })
    (nothing : e.taken? = none ∧ e.done? = none ∧ e.ends = false)
    (reads : ∀ n, v.session.ReadsFrom n →
      Session.ReadsFrom n { v.session with console := console }) :
    Noted v e { v with session := { v.session with console := console } } := by
  obtain ⟨taken, done, ends⟩ := nothing
  constructor
  case session => rw [run]; exact .refl _
  case replies => rw [Entry.reply?_of_taken? taken]; exact (List.append_nil _).symm
  case inbox => rw [taken, ends]; exact ⟨v.inbox, rfl, rfl⟩
  case arrived => rw [done, ends]; exact ⟨v.arrived, rfl, rfl⟩
  case actions => rw [run]
  case stopped => rw [ends, Bool.or_false]
  case cause => rw [ends]; exact nofun
  case rests => rw [ends]; exact nofun
  case idle => exact fun _ => ⟨taken, rfl, rfl, rfl, rfl, rfl, rfl⟩
  case reads => exact fun build active => .inl ⟨build, active, rfl, reads⟩

theorem noted_written (v : Service) (c : Chunk) :
    Noted v (.written c) { v with session := (v.session.write c).2 } :=
  noted_console rfl ⟨rfl, rfl, rfl⟩ fun _ h => h.write c

theorem noted_closed (v : Service) :
    Noted v .closed { v with session := v.session.closeConsole } :=
  noted_console rfl ⟨rfl, rfl, rfl⟩ fun _ h => h.close

end Service

end BuildSupervisor
