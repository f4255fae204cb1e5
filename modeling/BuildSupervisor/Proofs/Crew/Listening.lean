import BuildSupervisor.Proofs.Crew.Tally
import BuildSupervisor.Proofs.Crew.Credit
import BuildSupervisor.Proofs.Event.Listening
/-!
# From where invokers listen

An invoker listens from before it asks for its build, so that nothing about the build can have been
told before the place from which it listens; `Attuned` says so, and every turn keeps it.  With it
goes a bound on what has been told at all: two notifications for each invoker.
-/

namespace BuildSupervisor

/-- Whether the command asks for a build. -/
def Command.isStart : Command → Bool
  | .start _ => true
  | _ => false

namespace Service

/-- How many of the commands that wait ask for a build. -/
def requests (v : Service) : Nat :=
  v.inbox.countP fun m => m.2.isStart

/-- Nothing has been told, and the build at hand is the same; others may have begun to listen, and
    have asked for `more` builds. -/
structure Untold (v w : Service) (more : Nat) : Prop where
  feed : v.session.events.channel.SameFeed w.session.events.channel
  published : w.session.events.published = v.session.events.published
  active : w.session.active = v.session.active
  lastId : w.session.lastId = v.session.lastId
  stopped : w.stopped = v.stopped
  replies : w.replies = v.replies
  requests : w.requests = v.requests + more

theorem Untold.refl (v : Service) : Untold v v 0 :=
  ⟨.refl _, rfl, rfl, rfl, rfl, rfl, rfl⟩

theorem Untold.trans {u v w : Service} {m n : Nat} (h : Untold u v m) (h' : Untold v w n) :
    Untold u w (m + n) where
  feed := ⟨h'.feed.ring.trans h.feed.ring, h'.feed.sent.trans h.feed.sent,
    h'.feed.closed.trans h.feed.closed⟩
  published := h'.published.trans h.published
  active := h'.active.trans h.active
  lastId := h'.lastId.trans h.lastId
  stopped := h'.stopped.trans h.stopped
  replies := h'.replies.trans h.replies
  requests := by rw [h'.requests, h.requests, Nat.add_assoc]

theorem Untold.log {v w : Service} {more : Nat} (h : Untold v w more) :
    w.session.events.log = v.session.events.log :=
  h.feed.sent

theorem untold_send {v w : Service} {ticket : Ticket} {command : Command}
    (h : v.send? ticket command = some w) : Untold v w (if command.isStart then 1 else 0) := by
  unfold send? at h
  split at h
  · cases h
  · cases h
    refine ⟨.refl _, rfl, rfl, rfl, rfl, rfl, ?_⟩
    rw [requests, List.countP_append, List.countP_singleton]
    rfl

theorem untold_write (v : Service) (c : Chunk) :
    Untold v { v with session := (v.session.write c).2 } 0 :=
  ⟨.refl _, rfl, rfl, rfl, rfl, rfl, rfl⟩

end Service

namespace Invoker

/-- Whether the invoker has still something to do or to wait for. -/
def isBusy (i : Invoker) : Bool :=
  match i.phase with
  | .over _ => false
  | _ => true

/-- The invoker listens from where it did before, as long as it is busy. -/
def ListensOn (i j : Invoker) : Prop :=
  j.ticket = i.ticket ∧ (j.isBusy = true → i.isBusy = true ∧ j.listener = i.listener)

theorem ListensOn.refl (i : Invoker) : i.ListensOn i :=
  ⟨rfl, fun busy => ⟨busy, rfl⟩⟩

theorem untold_ask (v : Service) (ticket : Ticket) (request : BuildRequest) (command : ToolCommand)
    (launch : Launch) (listener : Cursor) :
    (∃ more ≤ 1, v.Untold (ask v ticket request command launch listener).2 more) ∧
      (ask v ticket request command launch listener).1.ticket = ticket ∧
      (ask v ticket request command launch listener).1.listener = listener := by
  unfold ask
  split
  · rename_i w sent
    exact ⟨⟨1, Nat.le_refl 1, Service.untold_send sent⟩, rfl, rfl⟩
  · exact ⟨⟨0, Nat.zero_le 1, .refl v⟩, rfl, rfl⟩

/-- Nothing is told by what the invoker does, and it listens on. -/
structure Listens (i : Invoker) (v : Service) (after : Invoker × Service) : Prop where
  untold : v.Untold after.2 0
  listensOn : i.ListensOn after.1

theorem listens_startTool {i : Invoker} (busy : i.isBusy = true) (id : BuildId) (v : Service) :
    i.Listens v (i.startTool id v) := by
  unfold startTool
  split
  · exact ⟨.refl v, rfl, fun _ => ⟨busy, rfl⟩⟩
  · exact ⟨Service.untold_write v _, rfl, fun _ => ⟨busy, rfl⟩⟩

theorem listens_readTool {i : Invoker} (busy : i.isBusy = true) (first : OutputKind) (id : BuildId)
    (tool : RunningTool) (v : Service) : i.Listens v (i.readTool first id tool v) := by
  unfold readTool
  split
  · exact ⟨Service.untold_write v _, rfl, fun _ => ⟨busy, rfl⟩⟩
  · exact ⟨.refl v, rfl, fun _ => ⟨busy, rfl⟩⟩

theorem listens_report {i : Invoker} (busy : i.isBusy = true) (id : BuildId) (ended : ToolEnd)
    (v : Service) : i.Listens v (i.report id ended v) := by
  unfold report
  split
  · rename_i w sent
    exact ⟨Service.untold_send sent, rfl, fun _ => ⟨busy, rfl⟩⟩
  · exact ⟨.refl v, rfl, nofun⟩

theorem listens_over (i : Invoker) (v : Service) (listener : Cursor)
    (outcome : Except InvokeError Outcome) :
    i.Listens v ({ i with listener := listener, phase := .over outcome }, v) :=
  ⟨.refl v, rfl, nofun⟩

theorem listens_takeReply? {i : Invoker} (busy : i.isBusy = true) {v : Service}
    {after : Invoker × Service} (h : i.takeReply? v = some after) : i.Listens v after := by
  unfold takeReply? at h
  split at h
  · cases h
    exact listens_startTool busy _ v
  · cases h
    exact listens_over i v _ _
  · cases h
    exact listens_over i v _ _
  all_goals
    split at h
    · cases h
      exact listens_over i v _ _
    · cases h

theorem listens_takeResult? {i : Invoker} {id : BuildId} {ended : ToolEnd} {v : Service}
    {after : Invoker × Service} (h : i.takeResult? id ended v = some after) :
    i.Listens v after := by
  unfold takeResult? at h
  split at h
  · cases h
  · obtain ⟨outcome, _, rfl⟩ := Option.map_eq_some_iff.mp h
    exact listens_over i v _ _
  · cases h
    exact listens_over i v _ _

/-- Whatever an invoker does, nothing is told by it, and it does not move on from where it listens
    before it is done. -/
theorem listens_step {i : Invoker} {first : OutputKind} {v : Service} {after : Invoker × Service}
    (h : i.step? first v = some after) : i.Listens v after := by
  unfold step? at h
  split at h
  · rename_i phase
    exact listens_takeReply? (by rw [isBusy, phase]) h
  · rename_i phase
    cases h
    exact listens_readTool (by rw [isBusy, phase]) first _ _ v
  · rename_i phase
    cases h
    exact listens_report (by rw [isBusy, phase]) _ _ v
  · exact listens_takeResult? h
  · cases h

end Invoker

namespace Crew

/-- The invoker was there before, or has joined just now. -/
def Seated (c : Crew) (x : Invoker) : Prop :=
  (∃ i ∈ c.invokers, i.ListensOn x) ∨
    x.ticket = c.nextTicket ∧ x.listener.next = c.service.session.events.log.length

/-- A turn in which the service does nothing: nothing is told, and everyone keeps their seat. -/
structure Seats (c d : Crew) : Prop where
  seated : ∀ x ∈ d.invokers, Seated c x
  /-- Nobody asks for a build who does not join, and who joins asks for no more than one. -/
  untold : ∃ more, c.service.Untold d.service more ∧
    c.invokers.length + more ≤ d.invokers.length

theorem seats_of_same {c d : Crew} (untold : c.service.Untold d.service 0)
    (same : d.invokers = c.invokers) : Seats c d := by
  refine ⟨?_, 0, untold, Nat.le_of_eq (congrArg List.length same.symm)⟩
  rw [same]
  exact fun x mem => .inl ⟨x, mem, .refl x⟩

theorem seats_join {c d : Crew} {request : BuildRequest} {command : ToolCommand} {launch : Launch}
    (h : c.join? request command launch = some d) : Seats c d := by
  obtain ⟨⟨listener, events⟩, listens, rfl⟩ := Option.map_eq_some_iff.mp h
  obtain ⟨⟨cursor, channel⟩, joined, made⟩ := Option.map_eq_some_iff.mp listens
  cases made
  unfold Channel.join? at joined
  split at joined
  · cases joined
  · cases joined
    dsimp only
    generalize hv : ({ c.service with session := _ } : Service) = v
    have listening : c.service.Untold v 0 := by
      rw [← hv]
      exact ⟨⟨rfl, rfl, rfl⟩, rfl, rfl, rfl, rfl, rfl, rfl⟩
    obtain ⟨⟨more, few, asked⟩, ticket, place⟩ := Invoker.untold_ask v c.nextTicket request command launch
      ⟨c.service.session.events.channel.sent.length⟩
    refine ⟨?_, _, listening.trans asked, ?_⟩
    · intro x mem
      rcases List.mem_append.mp mem with old | new
      · exact .inl ⟨x, old, .refl x⟩
      · rw [List.mem_singleton.mp new]
        exact .inr ⟨ticket, congrArg Cursor.next place⟩
    · rw [List.length_append, Nat.zero_add]
      exact Nat.add_le_add_left few _

theorem seats_proceed {c d : Crew} {index : Nat} {first : OutputKind}
    (h : c.proceed? index first = some d) : Seats c d := by
  obtain ⟨i, there, h⟩ := Option.bind_eq_some_iff.mp h
  obtain ⟨⟨j, v⟩, step, rfl⟩ := Option.map_eq_some_iff.mp h
  obtain ⟨untold, on⟩ := Invoker.listens_step step
  refine ⟨?_, 0, untold, Nat.le_of_eq List.length_set.symm⟩
  intro x mem
  rcases List.mem_or_eq_of_mem_set mem with old | rfl
  · exact .inl ⟨x, old, .refl x⟩
  · exact .inl ⟨i, List.mem_of_getElem? there, on⟩

theorem seats_elapse {c d : Crew} {by_ : Duration} (h : c.elapse? by_ = some d) : Seats c d := by
  unfold elapse? at h
  dsimp only at h
  split at h
  · cases h
  · cases h
    exact seats_of_same ⟨.refl _, rfl, rfl, rfl, rfl, rfl, rfl⟩ rfl

/-- Only the service tells anything. -/
theorem seats_turn (c : Crew) {t : Turn} (other : t ≠ .serve) : Seats c (c.turn t) := by
  rcases c.turn_cases t with same | possible
  · rw [same]
    exact seats_of_same (.refl _) rfl
  · generalize c.turn t = d at possible ⊢
    cases t with
    | serve => exact absurd rfl other
    | arrive target =>
      obtain ⟨v, arrived, rfl⟩ := Option.map_eq_some_iff.mp possible
      obtain ⟨popped, _, rfl⟩ := Option.map_eq_some_iff.mp arrived
      exact seats_of_same ⟨.refl _, rfl, rfl, rfl, rfl, rfl, rfl⟩ rfl
    | elapse by_ => exact seats_elapse possible
    | join request command launch => exact seats_join possible
    | proceed index first => exact seats_proceed possible
    | order o =>
      obtain ⟨v, sent, rfl⟩ := Option.map_eq_some_iff.mp possible
      have untold := Service.untold_send sent
      cases o <;> exact seats_of_same untold rfl
    | write chunk =>
      cases possible
      exact seats_of_same (Service.untold_write _ chunk) rfl
    | closeConsole =>
      cases possible
      exact seats_of_same ⟨.refl _, rfl, rfl, rfl, rfl, rfl, rfl⟩ rfl
    | release =>
      cases possible
      exact seats_of_same ⟨.refl _, rfl, rfl, rfl, rfl, rfl, rfl⟩ rfl

end Crew

/-! ## How much is told -/

namespace Session

/-- How much has been told, and may still be told of the build at hand. -/
def tellings (s : Session) : Nat :=
  s.events.log.length + if s.active.isSome then 1 else 0

theorem SameBooks.tellings {s t : Session} (books : SameBooks s t) : t.tellings = s.tellings := by
  rw [Session.tellings, Session.tellings, books.events, books.active]

/-- Only a start adds to what may be told, two notifications at most; and what has been told
    stays. -/
theorem Effect.tells {s t : Session} {op : Operation} {answer : Answer} (booked : Booked s)
    (effect : Effect s op answer t) :
    (∃ more, t.events.log = s.events.log ++ more) ∧ t.tellings ≤ s.tellings + 2 ∧
      ((∀ located request, op ≠ .start located request) → t.tellings ≤ s.tellings) := by
  have rested : s.reset.tellings ≤ s.tellings := Nat.le_add_right _ _
  have within {n : Nat} (h : n ≤ s.tellings) : n ≤ s.tellings + 2 := Nat.le_add_right_of_le h
  cases effect with
  | kept _ _ _ books =>
    rw [books.tellings, books.events]
    exact ⟨⟨[], (List.append_nil _).symm⟩, Nat.le_add_right _ _, fun _ => Nat.le_refl _⟩
  | discarded books =>
    rw [books.tellings, books.events]
    exact ⟨⟨[], (List.append_nil _).symm⟩, within rested, fun _ => rested⟩
  | aborted located request books =>
    rw [books.tellings, books.events]
    exact ⟨⟨[], (List.append_nil _).symm⟩, within rested, fun _ => rested⟩
  | accepted located request books =>
    rw [books.tellings, books.events, Session.tellings, Session.tellings, booked.log_publish,
      List.length_append, List.length_singleton]
    refine ⟨⟨_, rfl⟩, ?_, fun other => absurd rfl (other located request)⟩
    simp only [Option.isSome_some, if_true]
    omega
  | reported build _ _ active _ books =>
    rw [books.tellings, books.events, Session.tellings, Session.tellings, active]
    exact ⟨⟨[], (List.append_nil _).symm⟩, Nat.le_add_right _ _, fun _ => Nat.le_refl _⟩
  | ended build result active _ _ _ books =>
    have last : (s.ended build result).tellings = s.tellings := by
      rw [Session.tellings, Session.tellings, Session.ended, booked.log_publish, List.length_append,
        List.length_singleton, active]
      rfl
    rw [books.tellings, books.events, last, Session.ended, booked.log_publish]
    exact ⟨⟨_, rfl⟩, Nat.le_add_right _ _, fun _ => Nat.le_refl _⟩

end Session

namespace Service

/-- How much has been told, and may still be told of the build at hand and of those asked for. -/
def told (v : Service) : Nat :=
  v.session.tellings + 2 * v.requests

theorem Untold.told {v w : Service} {more : Nat} (h : Untold v w more) :
    w.told = v.told + 2 * more := by
  rw [Service.told, Service.told, Session.tellings, Session.tellings, h.log, h.active, h.requests]
  omega

/-- The books that a service keeps over a turn. -/
theorem booked_step {v w : Service} (booked : v.session.Booked) (step : Step v (some w)) :
    w.session.Booked ∧ (∃ more, w.session.events.log = v.session.events.log ++ more) ∧
      w.session.events.channel.ring = v.session.events.channel.ring := by
  obtain ⟨u, before, same | ⟨op, after⟩⟩ := operation_step step
  · have books := before.trans same
    rw [books.events]
    exact ⟨booked.of_sameBooks books, ⟨[], (List.append_nil _).symm⟩, rfl⟩
  · have booked' := booked.of_sameBooks before
    have effect := Session.effect_apply u op
    obtain ⟨⟨more, log⟩, _⟩ := effect.tells booked'
    rw [after.events, u.ring_events_apply op, ← before.events]
    exact ⟨(booked'.apply effect).of_sameBooks after, ⟨more, log⟩, rfl⟩

theorem Listened.told {v w : Service} (h : Listened v w) : w.told = v.told := by
  rw [Service.told, Service.told, h.books.tellings, requests, requests, h.inbox]

theorem told_stop (v : Service) : v.stop.told ≤ v.told := by
  have rested : v.session.reset.tellings ≤ v.session.tellings := Nat.le_add_right _ _
  exact Nat.add_le_add rested (Nat.zero_le _)

/-- A command is taken from the inbox; what a start may tell has been allowed for there. -/
theorem told_handle {v : Service} (booked : v.session.Booked) (ticket : Ticket)
    (command : Command) :
    (v.handle ticket command).told ≤ v.told + if command.isStart then 2 else 0 := by
  have keep (op : Operation) (other : ∀ located request, op ≠ .start located request) :
      (v.session.apply op).2.tellings ≤ v.session.tellings :=
    ((Session.effect_apply v.session op).tells booked).2.2 other
  cases command with
  | start request =>
    have tells := ((Session.effect_start v.session v.located request).tells booked).2.1
    change (v.session.start v.located request).2.tellings + 2 * v.requests ≤
      v.session.tellings + 2 * v.requests + 2
    omega
  | buildComplete succeeded said =>
    exact Nat.add_le_add_right (keep (.buildComplete succeeded said) nofun) _
  | reset => exact Nat.add_le_add_right (keep .reset nofun) _
  | status => exact Nat.le_refl _
  | shutdown => exact told_stop v

/-- A turn does not add to what may be told. -/
theorem told_step {v w : Service} (booked : v.session.Booked) (step : Step v (some w)) :
    w.told ≤ v.told := by
  cases step with
  | heard _ _ looked => exact Nat.le_of_eq looked.told
  | @did u task rest _ _ _ looked =>
    rw [← looked.told]
    refine Nat.add_le_add_right ?_ _
    have booked' := booked.of_sameBooks looked.books
    cases task with
    | finalize id succeeded said =>
      have effect := Session.effect_apply u.session (.finalize id succeeded said)
      exact (effect.tells booked').2.2 nofun
    | watchdog id =>
      have effect := Session.effect_apply u.session (.watchdog id)
      exact (effect.tells booked').2.2 nofun
  | @took u ticket command rest _ _ _ inbox looked =>
    have booked' := booked.of_sameBooks looked.books
    have handled := told_handle (v := { u with inbox := rest }) booked' ticket command
    have before := looked.told
    have waited : u.requests = ({ u with inbox := rest } : Service).requests +
        if command.isStart then 1 else 0 := by
      rw [requests, looked.inbox, inbox, List.countP_cons]
      rfl
    have all : u.told = ({ u with inbox := rest } : Service).told +
        2 * (if command.isStart then 1 else 0) := by
      rw [Service.told, waited, Nat.mul_add, ← Nat.add_assoc]
      rfl
    refine Nat.le_trans handled ?_
    rw [← before, all]
    split <;> exact Nat.le_refl _
  | @ended u _ _ looked =>
    rw [← looked.told]
    exact told_stop u

end Service

namespace Crew

/-- What is told of the build of an invoker comes behind the place from which it listens, and no
    more is told than two notifications for each invoker. -/
structure Attuned (c : Crew) : Prop where
  honest : Honest c
  tally : Tally c
  booked : c.service.session.Booked
  ring : c.service.session.events.channel.ring = eventCapacity
  told : c.service.told ≤ 2 * c.invokers.length
  ticketed : ∀ ticket id, c.Owns ticket id → ticket < c.nextTicket
  placed : ∀ i ∈ c.invokers, i.isBusy = true →
    i.listener.next ≤ c.service.session.events.log.length
  earlier : ∀ i ∈ c.invokers, i.isBusy = true → ∀ id, c.Owns i.ticket id →
    ∀ n ∈ c.service.session.events.log.take i.listener.next, n.buildId < id

theorem Effect.nextTicket_le {c d : Crew} {t : Turn} (effect : Effect c t d) :
    c.nextTicket ≤ d.nextTicket := by
  cases effect with
  | served _ => exact Nat.le_refl _
  | passed _ => exact Nat.le_refl _
  | joined _ _ _ _ => exact Nat.le_succ _
  | proceeded _ _ _ => exact Nat.le_refl _
  | ordered _ _ => exact Nat.le_succ _

namespace Attuned

theorem new (config : Config) (dialect : Dialect) (environment : Environment) (console : Console)
    (located : Located) :
    Attuned (Crew.new (Session.new config dialect environment console) located) where
  honest := .new _ _
  tally := .new _ _
  booked := Session.booked_new config dialect environment console
  ring := rfl
  told := Nat.le_refl 0
  ticketed := nofun
  placed := nofun
  earlier := nofun

/-- A build that is accepted in a turn of the service has a greater number than all that were told
    of before. -/
theorem serve {c : Crew} (h : Attuned c) {v : Service} (step : c.service.Step (some v)) :
    Attuned { c with service := v } := by
  have effect : Effect c .serve { c with service := v } := .served step
  obtain ⟨booked, ⟨more, log⟩, ring⟩ := Service.booked_step h.booked step
  refine ⟨h.honest.effect effect, h.tally.effect effect, booked, ring.trans h.ring,
    Nat.le_trans (Service.told_step h.booked step) h.told, ?_, ?_, ?_⟩
  · intro ticket id owns
    rcases Service.accepted_step step owns with old | new
    · exact h.ticketed ticket id old
    · obtain ⟨request, due⟩ := new.asked
      exact h.tally.sentBelow _ (h.honest.inbox _ (Service.mem_inbox_of_dueCommand? due))
  · intro i mem busy
    rw [log, List.length_append]
    exact Nat.le_add_right_of_le (h.placed i mem busy)
  · intro i mem busy id owns n earlier
    rw [log, List.take_append_of_le_length (h.placed i mem busy)] at earlier
    rcases Service.accepted_step step owns with old | new
    · exact h.earlier i mem busy id old n earlier
    · rw [new.fresh]
      exact Nat.lt_succ_of_le (h.booked.bounded n (List.mem_of_mem_take earlier))

/-- Whoever joins has no build yet, and everyone else listens from where they did. -/
theorem seats {c d : Crew} (h : Attuned c) (honest : Honest d) (tally : Tally d)
    (tickets : c.nextTicket ≤ d.nextTicket) (seats : Seats c d) : Attuned d := by
  obtain ⟨more, untold, few⟩ := seats.untold
  have log := untold.log
  have owns {ticket : Ticket} {id : BuildId} (owns : d.Owns ticket id) : c.Owns ticket id :=
    (owns_congr untold.replies ticket id).mp owns
  refine ⟨honest, tally, ?_, untold.feed.ring.trans h.ring, ?_, ?_, ?_, ?_⟩
  · refine ⟨untold.feed.closed.trans h.booked.isOpen, ?_, ?_, ?_, ?_⟩
    · rw [untold.published, log]
      exact h.booked.published
    · rw [log]
      exact h.booked.chronicle
    · rw [log, untold.lastId]
      exact h.booked.bounded
    · rw [log, untold.active]
      exact h.booked.current
  · rw [untold.told]
    have before := h.told
    omega
  · exact fun ticket id own => Nat.lt_of_lt_of_le (h.ticketed ticket id (owns own)) tickets
  · intro x mem busy
    rw [log]
    rcases seats.seated x mem with ⟨i, there, _, on⟩ | ⟨_, place⟩
    · obtain ⟨busy', same⟩ := on busy
      rw [same]
      exact h.placed i there busy'
    · exact Nat.le_of_eq place
  · intro x mem busy id own n earlier
    rw [log] at earlier
    rcases seats.seated x mem with ⟨i, there, ticket, on⟩ | ⟨ticket, _⟩
    · obtain ⟨busy', same⟩ := on busy
      rw [same] at earlier
      rw [ticket] at own
      exact h.earlier i there busy' id (owns own) n earlier
    · have given := h.ticketed _ id (owns own)
      rw [ticket] at given
      exact absurd given (Nat.lt_irrefl _)

theorem turn {c : Crew} (h : Attuned c) (t : Turn) : Attuned (c.turn t) := by
  rcases effect_turn c t with same | effect
  · rw [same]
    exact h
  · by_cases served : t = .serve
    · subst served
      rcases c.turn_serve_cases with same | ⟨v, step, moved⟩
      · rw [same]
        exact h
      · rw [moved]
        exact h.serve (step ▸ c.service.step_cases)
    · exact h.seats (h.honest.effect effect) (h.tally.effect effect) effect.nextTicket_le
        (seats_turn c served)

end Attuned

/-- Whatever a new crew does, its invokers listen from before their builds. -/
theorem attuned_run (config : Config) (dialect : Dialect) (environment : Environment)
    (console : Console) (located : Located) (turns : List Turn) :
    Attuned ((Crew.new (Session.new config dialect environment console) located).run turns) := by
  induction turns using List.reverseRecOn with
  | nil => exact .new config dialect environment console located
  | append_singleton turns t ih =>
    rw [run_concat]
    exact ih.turn t

end Crew

end BuildSupervisor
